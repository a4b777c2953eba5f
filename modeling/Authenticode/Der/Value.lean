import Authenticode.Der

/-!
# Values of elements

What the primitive elements of keys and certificates denote, and the shapes of
their constructed ones. These readers only say yes or no.
-/
namespace Authenticode.Der

/-- The INTEGER of a natural number, with a zero octet before a set top bit. -/
def encodeNat (n : Nat) : Bytes :=
  let digits := Bytes.magnitude n
  match digits with
  | d :: _ => encode tagInteger (if d < 0x80 then digits else 0 :: digits)
  | [] => encode tagInteger [0]

def encodeBits (b : Bytes) : Bytes := encode tagBitString (0 :: b)

/-- Whether octets are the shortest two's complement of a number. -/
def isMinimalInteger : Bytes → Bool
  | [] => false
  | [_] => true
  | a :: b :: _ => !(a = 0 && b < 0x80) && !(a = 0xff && 0x80 ≤ b)

/-- Whether octets are the subidentifiers of an object identifier. -/
def isOidContents (b : Bytes) : Bool :=
  go true b
where
  /-- Whether the octets continue an identifier, at the start of a subidentifier or inside one. -/
  go (atStart : Bool) : Bytes → Bool
    | [] => false
    | [d] => d < 0x80
    | d :: ds => !(atStart && d = 0x80) && go (d < 0x80) ds

namespace Element

def children? (tag : UInt8) (e : Element) : Option (List Element) :=
  if e.tag = tag then (allElements e.contents).toOption else none

def octets? (tag : UInt8) (e : Element) : Option Bytes :=
  if e.tag = tag then some e.contents else none

def oid? (e : Element) : Option Bytes := (e.octets? tagOid).filter isOidContents

/-- The content octets of an INTEGER in its shortest form. -/
def integer? (e : Element) : Option Bytes := (e.octets? tagInteger).filter isMinimalInteger

def natural? (e : Element) : Option Nat := (e.octets? tagInteger).map Bytes.beNat

/-- The octets of a BIT STRING, with its unused bits read as zero. -/
def bits? (e : Element) : Option Bytes := do
  match ← e.octets? tagBitString with
  | unused :: b =>
    if 7 < unused then none
    else some (b.dropLast ++ (b.getLast?.map (· &&& (0xff <<< unused))).toList)
  | [] => none

/-- Whether the contents suit the type that the tag names, as far as the type limits them. -/
def isValue (e : Element) : Bool :=
  match e.tag with
  | 0x00 => false
  | 0x01 => e.contents.length == 1
  | 0x02 | 0x0a => isMinimalInteger e.contents
  | 0x03 => e.bits?.isSome
  | 0x05 => e.contents.isEmpty
  | 0x06 => isOidContents e.contents
  | 0x1c => e.contents.length % 4 == 0
  | 0x1e => e.contents.length % 2 == 0
  | _ => true

/-- The one element inside an element with the given tag. -/
def only? (tag : UInt8) (e : Element) : Option Element := do
  match ← e.children? tag with
  | [inner] => some inner
  | _ => none

def algorithm? (e : Element) : Option (Bytes × Option Element) := do
  match ← e.children? tagSequence with
  | [oid] => some (← oid.oid?, none)
  | [oid, parameters] => if parameters.isValue then some (← oid.oid?, some parameters) else none
  | _ => none

end Element

def first? (tag : UInt8) (data : Bytes) : Option Element :=
  (read data).toOption.filter (·.tag = tag)

end Authenticode.Der
