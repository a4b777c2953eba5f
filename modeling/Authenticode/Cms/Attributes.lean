import Authenticode.Cms.IndirectData
import Authenticode.Cms.Time

/-!
# Signed attributes

The signer signs a set of attributes, one of which holds the hash of the content.
The set is signed under its own tag and stored under a context tag, so what is
kept is the encoding behind the tag: both forms share it.
-/
namespace Authenticode.Cms

/-- An attribute with a single value, given in its encoding. -/
structure SignedAttribute where
  oid : Bytes
  value : Bytes
  deriving DecidableEq, Repr

namespace SignedAttribute

/-- The sequence of the identifier and the set of the one value. -/
def encode (a : SignedAttribute) : Bytes :=
  Der.encodeParts Der.tagSequence [Der.encodeOid a.oid, Der.encode Der.tagSet a.value]

def describe (a : SignedAttribute) : String :=
  s!"SignedAttribute(oid={a.oid.toHex}, len={a.encode.length})"

/-- The identifier 1.2.840.113549.1.9.3. -/
def contentTypeOid : Bytes := [0x2a, 0x86, 0x48, 0x86, 0xf7, 0x0d, 0x01, 0x09, 0x03]

/-- The identifier 1.2.840.113549.1.9.4. -/
def messageDigestOid : Bytes := [0x2a, 0x86, 0x48, 0x86, 0xf7, 0x0d, 0x01, 0x09, 0x04]

/-- The identifier 1.2.840.113549.1.9.5. -/
def signingTimeOid : Bytes := [0x2a, 0x86, 0x48, 0x86, 0xf7, 0x0d, 0x01, 0x09, 0x05]

/-- The identifier 1.3.6.1.4.1.311.2.1.11. -/
def statementTypeOid : Bytes := [0x2b, 0x06, 0x01, 0x04, 0x01, 0x82, 0x37, 0x02, 0x01, 0x0b]

/-- The identifier 1.3.6.1.4.1.311.2.1.12. -/
def opusInfoOid : Bytes := [0x2b, 0x06, 0x01, 0x04, 0x01, 0x82, 0x37, 0x02, 0x01, 0x0c]

/-- The identifier 1.3.6.1.4.1.311.2.1.21. -/
def individualPurposeOid : Bytes := [0x2b, 0x06, 0x01, 0x04, 0x01, 0x82, 0x37, 0x02, 0x01, 0x15]

/-- What is signed: an image's digest. -/
def contentType : SignedAttribute := ⟨contentTypeOid, Der.encodeOid IndirectData.oid⟩

/-- When it is signed, in seconds from 1970. -/
def signingTime (now : Int) : Except Error SignedAttribute := do
  return ⟨signingTimeOid, ← Time.encode now⟩

/-- The hash of the content, taken without its outer tag and length. -/
def messageDigest (content : Bytes) (a : HashAlgorithm) : Except Error SignedAttribute := do
  let e ← Der.read content
  return ⟨messageDigestOid, Der.encode Der.tagOctetString (a.hash e.contents)⟩

/-- Who signs: an individual. -/
def statementType : SignedAttribute :=
  ⟨statementTypeOid, Der.encode Der.tagSequence (Der.encodeOid individualPurposeOid)⟩

def opusInfo : SignedAttribute := ⟨opusInfoOid, Der.encode Der.tagSequence []⟩

end SignedAttribute

structure SignedAttributes where
  /-- The encoding behind the tag. -/
  body : Bytes
  deriving DecidableEq, Repr

namespace SignedAttributes

/-- The form that is hashed and signed. -/
def setDer (s : SignedAttributes) : Bytes := Der.tagSet :: s.body

/-- The form that is stored in a signature. -/
def implicitDer (s : SignedAttributes) : Bytes := Der.tagContext0 :: s.body

/-- Puts an attribute in front of the first one whose encoding is not less. -/
def insertSorted (a : SignedAttribute) : List SignedAttribute → List SignedAttribute
  | [] => [a]
  | b :: rest =>
    if (compare a.encode b.encode).isLE then a :: b :: rest else b :: insertSorted a rest

def sorted (attributes : List SignedAttribute) : List SignedAttribute :=
  attributes.foldr insertSorted []

/-- The set of these attributes, in whatever order they are given. -/
def ofList (attributes : List SignedAttribute) : SignedAttributes :=
  let contents := (sorted attributes).flatMap SignedAttribute.encode
  ⟨Der.encodeLength contents.length ++ contents⟩

/-- Takes a set from outside, in either of its forms. -/
def ofDer (data : Bytes) : Except Error SignedAttributes := do
  let e ← Der.read data
  if e.tag ≠ Der.tagSet ∧ e.tag ≠ Der.tagContext0 then
    throw (.signature (.attributesNotSet e.tag.toNat))
  for item in Der.elements e.contents do
    if (← item).tag ≠ Der.tagSequence then throw (.signature .attributeNotSequence)
  return ⟨e.raw.drop 1⟩

/-- Whether an attribute with exactly this encoding is in the set. -/
def contains (s : SignedAttributes) (a : SignedAttribute) : Bool :=
  match Der.read s.setDer with
  | .ok e => (Der.elements e.contents).any fun
    | .ok child => child.raw == a.encode
    | .error _ => false
  | .error _ => false

def describe (s : SignedAttributes) : String := s!"SignedAttributes(len={s.setDer.length})"

/-- The attributes for content, signed at a time in seconds from 1970. -/
def ofContent (content : Bytes) (a : HashAlgorithm) (now : Int) :
    Except Error SignedAttributes := do
  let time ← SignedAttribute.signingTime now
  let digest ← SignedAttribute.messageDigest content a
  return ofList [.contentType, time, digest, .statementType, .opusInfo]

def ofDigest (d : Digest) (now : Int) : Except Error SignedAttributes :=
  ofContent (IndirectData.encode d) d.algorithm now

end SignedAttributes

end Authenticode.Cms
