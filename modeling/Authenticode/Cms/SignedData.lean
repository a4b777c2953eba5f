import Authenticode.Armor
import Authenticode.Cms.Attributes
import Authenticode.Cms.Identity
import Authenticode.Cms.Signature
import Authenticode.Key.Signing

/-!
# Making signatures

A signature joins the signed content, the signer's attributes, the signature value
and the certificate. The value comes from the identity's own key, from outside, or
— in a draft that only shows how long the signature will be — from nowhere.
-/
namespace Authenticode.Cms

/-- A signature value and the attributes it was computed over. -/
structure RawSignature where
  value : Bytes
  attributes : SignedAttributes
  deriving DecidableEq, Repr

namespace RawSignature

def ofFiles (value attributes : Bytes) : Except Error RawSignature := do
  let value ← Armor.strip value
  if value = [] then throw (.signature .emptyRawSignature)
  return ⟨value, ← SignedAttributes.ofDer (← Armor.strip attributes)⟩

end RawSignature

/-- Who signs, with which digest algorithm, and when, in seconds from 1970. -/
structure Signer where
  algorithm : HashAlgorithm
  identity : SigningIdentity
  now : Int
  deriving DecidableEq, Repr

namespace Signer

/-- The identifiers of curve signatures, 1.2.840.10045.4.3.2 to 4.3.4. -/
def curveSignatureOid (a : HashAlgorithm) : Bytes :=
  [0x2a, 0x86, 0x48, 0xce, 0x3d, 0x04, 0x03,
    match a with | .sha256 => 2 | .sha384 => 3 | .sha512 => 4]

/-- The identifier of the signature algorithm, which the certificate's key decides. -/
def signatureIdentifier (s : Signer) : Except Error Bytes := do
  match ← s.identity.publicKey with
  | .rsa .. =>
    return Der.encodeParts Der.tagSequence [Der.encodeOid Key.PublicKey.rsaOid, Der.null]
  | .ec .. => return Der.encode Der.tagSequence (Der.encodeOid (curveSignatureOid s.algorithm))
  | .ed25519 _ => throw (.certificate (.unsupportedKey Key.PublicKey.ed25519Type))

/-- The serial number as it names a certificate: not negative, in the shortest form. -/
def serialContents (c : X509.Certificate) : Bytes :=
  match c.serialMagnitude with
  | d :: ds => if d < 0x80 then d :: ds else 0 :: d :: ds
  | [] => [0]

def signerName (c : X509.Certificate) : Bytes :=
  Der.encodeParts Der.tagSequence [c.issuer, Der.encode Der.tagInteger (serialContents c)]

def version : Bytes := Der.encode Der.tagInteger [1]

def assemble (s : Signer) (content : Bytes) (attributes : SignedAttributes) (value : Bytes) :
    Except Error Signature := do
  let digestIdentifier := s.algorithm.identifier
  let signerInfo := Der.encodeParts Der.tagSequence
    [version, signerName s.identity.certificate, digestIdentifier, attributes.implicitDer,
      ← s.signatureIdentifier, Der.encode Der.tagOctetString value]
  let contentInfo := Der.encodeParts Der.tagSequence
    [Der.encodeOid IndirectData.oid, Der.encode Der.tagContext0 content]
  let signedData := Der.encodeParts Der.tagSequence
    [version, Der.encode Der.tagSet digestIdentifier, contentInfo,
      Der.encode Der.tagContext0 s.identity.certificate.der, Der.encode Der.tagSet signerInfo]
  Signature.ofDer <| Der.encodeParts Der.tagSequence
    [Der.encodeOid Signature.signedDataOid, Der.encode Der.tagContext0 signedData]

def checkAlgorithm (s : Signer) (d : Digest) : Except Error Unit :=
  if d.algorithm = s.algorithm then .ok ()
  else .error (.inconsistent (.digestAlgorithm d.algorithm.name s.algorithm.name))

/-- Signs with the identity's own key, which may draw random numbers. Where none are given, the one
number is 1, which is of use to every key. -/
def generate (s : Signer) (d : Digest) (draws : List Nat := [1]) : Except Error Signature := do
  s.checkAlgorithm d
  let key ← s.identity.signingKey
  let content := IndirectData.encode d
  let attributes ← SignedAttributes.ofContent content s.algorithm s.now
  let value ← key.sign s.algorithm attributes.setDer draws
  s.assemble content attributes value

/-- Wraps a value from outside, whose attributes have to hold the hash of this digest's content. -/
def wrap (s : Signer) (d : Digest) (raw : RawSignature) : Except Error Signature := do
  s.checkAlgorithm d
  let content := IndirectData.encode d
  let expected ← SignedAttribute.messageDigest content s.algorithm
  if !raw.attributes.contains expected then throw (.signature .attributesOfOtherImage)
  s.assemble content raw.attributes raw.value

/-- A signature about a zero digest, at least as long as the one that will be made. -/
def draft (s : Signer) (raw : Option RawSignature) : Except Error Signature := do
  let content := IndirectData.encode (Digest.zero s.algorithm)
  match raw with
  | some r => s.assemble content r.attributes r.value
  | none =>
    let attributes ← SignedAttributes.ofContent content s.algorithm s.now
    let key ← s.identity.signingKey
    s.assemble content attributes (Bytes.zeros key.signatureSize)

end Signer

end Authenticode.Cms
