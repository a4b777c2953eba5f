import Authenticode.Der.Value

/-!
# Distinguished names

A name is a sequence of sets of typed string values. Each string type has its own
reading as text; a name is only accepted if the values of the common text types
can be read.
-/
namespace Authenticode.X509

structure NameEntry where
  oid : Bytes
  tag : UInt8
  value : Bytes
  deriving DecidableEq, Repr

/-- The identifier of the common name, 2.5.4.3. -/
def commonNameOid : Bytes := [0x55, 0x04, 0x03]

/-- Octets in a character of a string type; none for UTF-8, whose characters vary. -/
inductive CharWidth
  | utf8
  | fixed (octets : Nat)
  deriving DecidableEq, Repr

namespace NameEntry

def isValueTag (tag : UInt8) : Bool :=
  [0x03, 0x07, 0x08, 0x09, 0x0b, 0x0c, 0x0d, 0x0e, 0x0f, 0x12, 0x13, 0x14, 0x16, 0x1c, 0x1d, 0x1e,
    0x30].contains tag

/-- The string types whose values have to be readable for a name to be accepted. -/
def isTextTag (tag : UInt8) : Bool := [0x0c, 0x13, 0x14, 0x16, 0x1a, 0x1c, 0x1e].contains tag

def charWidth? (tag : UInt8) : Option CharWidth :=
  match tag with
  | 0x0c => some .utf8
  | 0x12 | 0x13 | 0x14 | 0x16 | 0x17 | 0x18 | 0x1a => some (.fixed 1)
  | 0x1c => some (.fixed 4)
  | 0x1e => some (.fixed 2)
  | _ => none

def char? (n : Nat) : Option Char := if h : n.isValidChar then some (Char.ofNatAux n h) else none

/-- The characters written big-endian in `width` octets each. -/
def wideChars? (width : Nat) (b : Bytes) : Option (List Char) :=
  if _h : width = 0 ∨ b = [] then some []
  else if b.length < width then none
  else do
    let c ← char? (Bytes.beNat (b.take width))
    let rest ← wideChars? width (b.drop width)
    some (c :: rest)
termination_by b.length
decreasing_by
  have := List.length_pos_iff.2 (not_or.1 _h).2
  simp only [List.length_drop]
  omega

/-- The value as text, if its type is a string type and its octets are characters of it. -/
def text? (e : NameEntry) : Option (List Char) := do
  match ← charWidth? e.tag with
  | .utf8 => (e.value.toText?).map String.toList
  | .fixed width => wideChars? width e.value

/-- Whether the value does not keep its name from being accepted. -/
def isReadable (e : NameEntry) : Bool := !isTextTag e.tag || e.text?.isSome

def ofElement? (e : Der.Element) : Option NameEntry := do
  match ← e.children? Der.tagSequence with
  | [oid, value] =>
    let entry : NameEntry := ⟨← oid.oid?, value.tag, value.contents⟩
    if isValueTag value.tag && value.isValue && entry.isReadable then some entry else none
  | _ => none

end NameEntry

def nameEntries? (name : Der.Element) : Option (List NameEntry) := do
  let sets ← name.children? Der.tagSequence
  let parts ← sets.mapM fun s => do (← s.children? Der.tagSet).mapM NameEntry.ofElement?
  some parts.flatten

/-- The first common name among the values, up to its first NUL. -/
def commonName? (entries : List NameEntry) : Option String := do
  let entry ← entries.find? (·.oid == commonNameOid)
  let text ← entry.text?
  some (String.ofList (text.takeWhile (· ≠ '\x00')))

end Authenticode.X509
