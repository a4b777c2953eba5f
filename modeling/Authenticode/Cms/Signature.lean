import Authenticode.Hash.Algorithm
import Authenticode.X509.Certificate

/-!
# Signatures

A signature is the encoding of a signed-data structure, checked for its outer
shape only. Its digest algorithm, certificates and signer are found by walking
the encoding, and each of these readings may fail on its own.
-/
namespace Authenticode.Cms

/-- A signature, kept as it was encoded. -/
structure Signature where
  /-- The whole encoding. -/
  der : Bytes
  deriving DecidableEq, Repr

/-- What listings say about a signature; parts that cannot be read are left out. -/
structure Summary where
  length : Nat
  digest : Option HashAlgorithm
  signer : Option String
  certificates : Nat
  deriving DecidableEq, Repr

namespace Signature

/-- The identifier of signed data, 1.2.840.113549.1.7.2. -/
def signedDataOid : Bytes := [0x2a, 0x86, 0x48, 0x86, 0xf7, 0x0d, 0x01, 0x07, 0x02]

/-- The signature at the start of octets; what follows it is dropped. -/
def ofDer (data : Bytes) : Except Error Signature := do
  let outer ← Der.read data
  if outer.tag ≠ Der.tagSequence then throw (.signature .notSequence)
  match ← Der.item? outer.contents 0 with
  | some kind =>
    if kind.tag = Der.tagOid ∧ kind.contents = signedDataOid then return ⟨outer.raw⟩
    else throw (.signature .notSignedData)
  | none => throw (.signature .notSignedData)

def length (s : Signature) : Nat := s.der.length

def describe (s : Signature) : String := s!"Signature(len={s.length})"

def fields (s : Signature) : Except Error (List Der.Element) := do
  let outer ← Der.read s.der
  let some wrapper := (← Der.item? outer.contents 1).filter (·.tag = Der.tagContext0)
    | throw (.signature .missingContent)
  let inner ← Der.read wrapper.contents
  Der.allElements inner.contents

/-- The first of the digest algorithms, if it is a supported one. -/
def digestAlgorithm (s : Signature) : Except Error (Option HashAlgorithm) := do
  let some set := (← s.fields).find? (·.tag = Der.tagSet) | return none
  let some algorithm ← Der.item? set.contents 0 | return none
  let some oid ← Der.item? algorithm.contents 0 | return none
  return HashAlgorithm.ofOid? oid.contents

/-- The certificate that an item of the certificate list encodes. -/
def certificateOfItem (item : Except Error Der.Element) : Except Error X509.Certificate := do
  match X509.Certificate.ofDer? (← item).raw with
  | some c => return c
  | none => throw .cryptographic

/-- The certificates in order. They stand behind the version, the digest algorithms and the
content. -/
def certificates (s : Signature) : Except Error (List X509.Certificate) := do
  match ((← s.fields).drop 3).find? (·.tag = Der.tagContext0) with
  | some list => (Der.elements list.contents).mapM certificateOfItem
  | none => return []

/-- The issuer and serial number by which the first signer names its certificate. -/
def signerName? (s : Signature) : Except Error (Option (Bytes × Bytes)) := do
  let some set := (← s.fields).reverse.find? (·.tag = Der.tagSet) | return none
  let some info ← Der.item? set.contents 0 | return none
  let some name := (← Der.item? info.contents 1).filter (·.tag = Der.tagSequence) | return none
  let issuer ← Der.item? name.contents 0
  let serial := (← Der.item? name.contents 1).filter (·.tag = Der.tagInteger)
  match issuer, serial with
  | some i, some n => return some (i.raw, n.contents.stripZeros)
  | _, _ => return none

/-- The signer's certificate: the one the signer names, or else the first. -/
def signerCertificate (s : Signature) : Except Error (Option X509.Certificate) := do
  let certificates ← s.certificates
  let named := (← s.signerName?).bind fun (issuer, serial) =>
    certificates.find? fun c => c.issuer == issuer && c.serialMagnitude.stripZeros == serial
  return named <|> certificates.head?

def summary (s : Signature) : Summary where
  length := s.length
  digest := s.digestAlgorithm.toOption.join
  signer := s.signerCertificate.toOption.join.bind X509.Certificate.commonName?
  certificates := (s.certificates.map List.length).toOption.getD 0

end Signature

end Authenticode.Cms
