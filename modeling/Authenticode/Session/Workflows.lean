import Authenticode.CertificateTable
import Authenticode.Session.Basic

/-!
# Workflows

Each workflow is a fixed sequence of steps on a session. The first step that fails
ends it. `Session.perform` runs the workflow that a set of actions selects.
-/
namespace Authenticode

namespace Listing

def rule : String := "---------------------------------------------\n"

def entry (index : Nat) (s : Cms.Summary) : String :=
  rule
    ++ s!"signature {index}: {s.length} bytes ({CertificateTable.entrySize s.length} in table), "
    ++ "digest " ++ (s.digest.map HashAlgorithm.name).getD "unknown" ++ "\n"
    ++ "The signer's common name is " ++ s.signer.getD "unknown" ++ "\n"
    ++ s!"There were {s.certificates} certs included.\n"

def text (signatures : List Cms.Signature) : String :=
  if signatures = [] then "No signatures found.\n"
  else String.join (signatures.mapIdx fun i s => entry i s.summary) ++ rule

end Listing

namespace Session

open Cms (Signature)

/-- The index for a new signature: the end of the list, unless one was asked for. An index far
behind the end is refused before an output is created. -/
def insertionIndex : Run Int := do
  let s ← get
  let count := s.signatures.length
  match s.options.signatureNumber with
  | some n => if n > count + 1 then throw .signatureNumber else return n
  | none => return count

/-- Signs the output image from a value made elsewhere. -/
def importRawSignature : Run Unit := do
  findCertificate false
  let value ← readArtifact .rawSignature
  let attributes ← readArtifact .signedAttributes
  let raw ← ofExcept (Cms.RawSignature.ofFiles value attributes)
  openInput
  let index ← insertionIndex
  openOutput
  closeInput
  let digest ← computeDigest (← outputImage).image .signing
  let signer ← signer
  growOutput (← ofExcept ((← signedOutput).spaceNeeded signer (some raw)))
  insertSignature index (← ofExcept (signer.wrap digest raw))
  closeOutput

def exportSignedAttributes : Run Unit := do
  openInput
  let digest ← computeDigest (← inputImage).image .signing
  let attributes ← ofExcept (Cms.SignedAttributes.ofDigest digest (← get).now)
  writeArtifact .signedAttributes attributes.setDer
  closeInput

def importSignature : Run Unit := do
  openInput
  let index ← insertionIndex
  openOutput
  closeInput
  let signature ← ofExcept (Signature.ofFile (← readArtifact .signature))
  growOutput (← ofExcept ((← signedOutput).missingSpace signature))
  ofExcept ((← signedOutput).checkSpace signature)
  insertSignature index signature
  closeOutput

/-- A block of armored octets or the octets themselves. -/
def exportedFile (armored : Bool) (label : String) (data : Bytes) : Bytes :=
  if armored then Bytes.ofText (Armor.encode label data) else data

def exportPublicKey : Run Unit := do
  findCertificate true
  let key ← ofExcept (← signer).identity.publicKey
  writeArtifact .publicKey (exportedFile (← get).options.armored "PUBLIC KEY" key.encode)

def exportCertificate : Run Unit := do
  findCertificate false
  let certificate := (← signer).identity.certificate
  writeArtifact .certificate
    (exportedFile (← get).options.armored "CERTIFICATE" certificate.der)

def exportSignature : Run Unit := do
  openInput
  let s ← get
  let index := s.options.signatureNumber.getD 0
  if index > s.signatures.length then throw .signatureNumber
  writeArtifact .signature
    (← ofExcept (SignedImage.exported s.signatures index s.options.armored))
  closeInput

def removeSignatureAt : Run Unit := do
  openInput
  openOutput
  closeInput
  discard (removeSignature ((← get).options.signatureNumber.getD 0))
  closeOutput

def listSignatures : Run Unit := do
  openInput
  print (Listing.text (← get).signatures)
  closeInput

def printDigest (omitVendorCertificate : Bool) : Run Unit := do
  openInput
  let input ← inputImage
  let digest ← computeDigest input.image ⟨(← get).options.padding, omitVendorCertificate⟩
  print (input.path ++ " " ++ digest.toHex ++ "\n")
  closeInput

def generateAndExportSignature : Run Unit := do
  findCertificate true
  openInput
  let digest ← computeDigest (← inputImage).image .signing
  let signature ← generate (← signer) digest
  writeArtifact .signature (signature.toFile (← get).options.armored)
  closeInput

def generateAndEmbedSignature : Run Unit := do
  findCertificate true
  openInput
  let index ← insertionIndex
  openOutput
  closeInput
  let before ← computeDigest (← outputImage).image .signing
  let signer ← signer
  growOutput (← ofExcept ((← signedOutput).spaceNeeded signer none))
  let digest ← computeDigest (← outputImage).image .signing
  if digest ≠ before then throw (.inconsistent .digestChanged)
  insertSignature index (← generate signer digest)
  closeOutput

def run : Workflow → Run Unit
  | .importRawSignature => importRawSignature
  | .exportSignedAttributes => exportSignedAttributes
  | .importSignature => importSignature
  | .exportPublicKey => exportPublicKey
  | .exportCertificate => exportCertificate
  | .exportSignature => exportSignature
  | .removeSignature => removeSignatureAt
  | .listSignatures => listSignatures
  | .printDigest omitVendorCertificate => printDigest omitVendorCertificate
  | .generateAndExportSignature => generateAndExportSignature
  | .generateAndEmbedSignature => generateAndEmbedSignature

def selectWorkflow (actions : ActionSet) : Except Error Workflow :=
  if actions = .empty then .error (.invalidInput .nothingToDo)
  else
    match Workflow.select? actions with
    | some w => .ok w
    | none => .error (.incompatible actions)

def perform (actions : ActionSet) : Run Unit := do
  let w ← ofExcept (selectWorkflow actions)
  if w.writesImage then checkPaths
  run w

end Session

end Authenticode
