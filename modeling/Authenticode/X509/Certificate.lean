import Authenticode.Armor.PemFile
import Authenticode.Key.Public
import Authenticode.X509.Name

/-!
# Certificates

What signing needs of an X.509 certificate: its octets, its issuer's name as
encoded, its serial number, its subject and its public key. Reading checks the
whole structure, so that what is accepted can be relied on.
-/
namespace Authenticode.X509

structure Certificate where
  /-- The whole encoding. -/
  der : Bytes
  /-- The issuer's name as encoded. -/
  issuer : Bytes
  /-- The content octets of the serial number. -/
  serial : Bytes
  subject : List NameEntry
  /-- The `SubjectPublicKeyInfo` as encoded. -/
  keyInfo : Der.Element
  deriving DecidableEq, Repr

namespace Certificate

/-- Two times, of either time type. -/
def isValidity (e : Der.Element) : Bool :=
  match e.children? Der.tagSequence with
  | some [start, stop] => [start, stop].all fun t => t.tag = 0x17 || t.tag = 0x18
  | _ => false

def isKeyInfo (e : Der.Element) : Bool :=
  match e.children? Der.tagSequence with
  | some [algorithm, key] => algorithm.algorithm?.isSome && key.bits?.isSome
  | _ => false

/-- An identifier, perhaps a criticality, and an octet string. -/
def isExtension (e : Der.Element) : Bool :=
  match e.children? Der.tagSequence with
  | some [oid, value] => oid.oid?.isSome && value.tag = Der.tagOctetString
  | some [oid, critical, value] =>
    oid.oid?.isSome && critical.tag = 0x01 && critical.contents.length = 1
      && value.tag = Der.tagOctetString
  | _ => false

def isExtensions (e : Der.Element) : Bool :=
  match e.only? 0xa3 with
  | some list => ((list.children? Der.tagSequence).map (·.all isExtension)).getD false
  | none => false

def isUniqueId (e : Der.Element) : Bool :=
  match e.contents with
  | unused :: _ => unused ≤ 7
  | [] => false

/-- The optional fields behind the public key, each at most once and in this order. -/
def isTail (fields : List Der.Element) : Bool :=
  let skip (tag : UInt8) (ok : Der.Element → Bool) (fields : List Der.Element) :=
    match fields with
    | e :: rest => if e.tag = tag then if ok e then some rest else none else some (e :: rest)
    | [] => some []
  (do skip 0xa3 isExtensions (← skip 0x82 isUniqueId (← skip 0x81 isUniqueId fields))) == some []

def behindVersion? : List Der.Element → Option (List Der.Element)
  | e :: rest =>
    if e.tag = Der.tagContext0 then do
      let _ ← (← e.only? Der.tagContext0).integer?
      some rest
    else some (e :: rest)
  | [] => none

def ofElement? (e : Der.Element) : Option Certificate := do
  let [body, algorithm, signature] ← e.children? Der.tagSequence | none
  let _ ← algorithm.algorithm?
  let _ ← signature.bits?
  let serial :: inner :: issuer :: validity :: subject :: keyInfo :: tail ←
    behindVersion? (← body.children? Der.tagSequence) | none
  let number ← serial.integer?
  let _ ← inner.algorithm?
  let _ ← nameEntries? issuer
  let entries ← nameEntries? subject
  guard (isValidity validity && isKeyInfo keyInfo && isTail tail)
  some ⟨e.raw, issuer.raw, number, entries, keyInfo⟩

def ofDer? (data : Bytes) : Option Certificate := do
  ofElement? (← (Der.read data).toOption)

def labels : List Bytes := [Bytes.ofText "CERTIFICATE", Bytes.ofText "X509 CERTIFICATE"]

/-- The certificate in a file: the first one in its PEM blocks, or one without armor. -/
def ofFile? (file : Bytes) : Option Certificate :=
  (Armor.PemFile.first? labels file).bind ofDer? <|> ofDer? file

def commonName? (c : Certificate) : Option String := X509.commonName? c.subject

/-- The public key, if it is of a supported kind. -/
def publicKey? (c : Certificate) : Option Key.PublicKey := Key.PublicKey.ofInfo? c.keyInfo

/-- The absolute value of a two's complement number, without leading zeros. -/
def magnitude (b : Bytes) : Bytes :=
  match b with
  | d :: _ =>
    if 0x80 ≤ d then Bytes.magnitude (Bytes.beNat (b.map (0xff - ·)) + 1) else Bytes.stripZeros b
  | [] => []

def serialMagnitude (c : Certificate) : Bytes := magnitude c.serial

end Certificate

end Authenticode.X509
