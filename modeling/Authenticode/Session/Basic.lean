import Authenticode.CertificateDatabase
import Authenticode.Pe.Coverage
import Authenticode.Session.Options
import Authenticode.SignedImage

/-!
# Sessions

A session is what the steps of a run share: the files, the image that is read and
the one that is written, the list of signatures, the digest and the identity. A step
that fails keeps what it had done to the session before the failure.
-/
namespace Authenticode

open Cms (Signature SigningIdentity)

structure InputImage where
  path : String
  image : Pe.Image
  deriving DecidableEq, Repr

/-- The image that is written. Its file holds a copy of the input until the image is finished. -/
structure OutputImage where
  file : Location
  image : Pe.Image
  deriving DecidableEq, Repr

/-- What the steps of a run share. -/
structure Session where
  options : Options
  /-- The time of signing, in seconds from 1970. -/
  now : Int
  files : FileSystem
  /-- The random numbers that are drawn in turn when something is signed. -/
  draws : List Nat := [1]
  input : Option InputImage := none
  output : Option OutputImage := none
  /-- The permission bits for new files, known once an input was opened. -/
  outputMode : Option Nat := none
  signatures : List Signature := []
  /-- The digest computed last. -/
  digest : Option Digest := none
  identity : Option SigningIdentity := none
  printed : String := ""
  warnings : List Warning := []
  deriving DecidableEq

namespace Session

abbrev Run := EStateM Error Session

/-- The result of a file operation, with what it was for. -/
def doing {α : Type} (a : Activity) (r : Except IoFailure α) : Run α :=
  match r with
  | .ok x => pure x
  | .error f => throw (.io a f)

def required {α : Type} (what : Missing) : Option α → Run α
  | some x => pure x
  | none => throw (.missing what)

def warn (ws : List Warning) : Run Unit := modify fun s => { s with warnings := s.warnings ++ ws }

def print (text : String) : Run Unit := modify fun s => { s with printed := s.printed ++ text }

def checkPaths : Run Unit := do
  let s ← get
  let input ← required .input s.options.input
  let output ← required .output s.options.output
  if s.files.isSameFile input output then throw (.precondition .inPlace)

def parseInput (data : Bytes) : Except Error Pe.Image :=
  match Pe.Image.parse data with
  | .error (.image f) => .error (.image (.unloadable f))
  | r => r

def openInput : Run Unit := do
  let s ← get
  let path ← required .input s.options.input
  let opened ← doing .openingInput (s.files.openForReading path)
  let bytes ← doing .readingInput opened.read
  let image ← ofExcept (parseInput bytes)
  match image.signatures with
  | .error _ => throw (.signature .unreadableList)
  | .ok signatures =>
    modify fun s => { s with
      signatures
      outputMode := opened.mode?
      input := some ⟨path, image⟩ }

def closeInput : Run Unit := modify fun s => { s with input := none }

def inputImage : Run InputImage := do
  match (← get).input with
  | some i => return i
  | none => throw (.inconsistent .inputNotOpen)

/-- Refuses a path that leads to a file, unless files may be overwritten. -/
def refuseExisting (path : String) : Run Unit := do
  let s ← get
  if !s.options.force && s.files.contains path then throw (.precondition (.outputExists path))

def create (path : String) (a : Activity) : Run Location := do
  refuseExisting path
  let s ← get
  let mode := s.outputMode.getD FileSystem.defaultMode
  let (file, files) ← doing a (s.files.create path (!s.options.force) mode)
  set { s with files }
  return file

def write (file : Location) (bytes : Bytes) : Run Unit :=
  modify fun s => { s with files := s.files.write file bytes }

def readArtifact (role : Artifact) : Run Bytes := do
  let s ← get
  let path ← required (.artifactInput role) (s.options.inputPath? role)
  let opened ← doing (.openingArtifactInput role path) (s.files.openForReading path)
  doing (.readingArtifact role path) opened.read

def writeArtifact (role : Artifact) (bytes : Bytes) : Run Unit := do
  let path ← required (.artifactOutput role) ((← get).options.outputPath? role)
  write (← create path (.openingArtifactOutput role path)) bytes

/-- Creates the output image as a copy of the input without its certificate table. -/
def openOutput : Run Unit := do
  let input ← inputImage
  let path ← required .output (← get).options.output
  let file ← create path .openingOutput
  write file input.image.bytes
  let copy ← ofExcept (Pe.Image.parse input.image.bytes)
  match Pe.Image.clearTable copy with
  | .error f _ => throw f
  | .ok warning image =>
    warn warning.toList
    modify fun s => { s with output := some ⟨file, image⟩ }

def outputImage : Run OutputImage := do
  match (← get).output with
  | some o => return o
  | none => throw (.inconsistent .outputNotOpen)

/-- Edits the output image together with the list of signatures. -/
def editOutput {α : Type} (edit : SignedImage.Edit α) : Run α := do
  let output ← outputImage
  let store (t : SignedImage) : Run Unit := modify fun s => { s with
    output := some { output with image := t.image }
    signatures := t.signatures }
  match edit ⟨output.image, (← get).signatures⟩ with
  | .ok a t =>
    store t
    return a
  | .error f t =>
    store t
    throw f

def signedOutput : Run SignedImage := do return ⟨(← outputImage).image, (← get).signatures⟩

def growOutput (amount : Nat) : Run Unit :=
  editOutput (SignedImage.onImage (Pe.Image.growTable amount))

def insertSignature (index : Int) (s : Signature) : Run Unit :=
  editOutput (SignedImage.insert index s)

def removeSignature (index : Int) : Run Signature := do
  let (removed, warning) ← editOutput (SignedImage.remove index)
  warn warning.toList
  return removed

def closeOutput : Run Unit := do
  let output ← outputImage
  modify fun s => { s with output := none }
  match SignedImage.finish ⟨output.image, (← get).signatures⟩ with
  | .error f _ => throw f
  | .ok warning t =>
    warn warning.toList
    write output.file t.image.bytes

def findCertificate (withKey : Bool) : Run Unit := do
  let s ← get
  let name ← required .certificateName s.options.certificateName
  let (database, warnings) ←
    ofExcept (CertificateDatabase.load s.files s.options.certificateDirectory)
  warn warnings
  let identity ← ofExcept (database.find name withKey)
  modify fun s => { s with identity := some identity }

def selected (identity : Option SigningIdentity) : Except Error SigningIdentity :=
  match identity with
  | some i => .ok i
  | none => .error (.inconsistent .noCertificateSelected)

def signer : Run Cms.Signer := do
  let s ← get
  return ⟨s.options.digest, ← ofExcept (selected s.identity), s.now⟩

/-- A signature by the identity's own key. -/
def generate (who : Cms.Signer) (d : Digest) : Run Signature := do
  ofExcept (who.generate d (← get).draws)

def computeDigest (image : Pe.Image) (o : Pe.DigestOptions) : Run Digest := do
  let d ← ofExcept (image.digest (← get).options.digest o)
  modify fun s => { s with digest := some d }
  return d

end Session

end Authenticode
