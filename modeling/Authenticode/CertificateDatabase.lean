import Authenticode.Cms.Identity
import Authenticode.Digest
import Authenticode.Error
import Authenticode.FileSystem.Basic

/-!
# Certificate databases

A directory of certificate files is a database of signing identities. The file
`name.key` beside a certificate `name.pem` holds its private key. Files that cannot
be used are passed over with a warning.
-/
namespace Authenticode

open Cms (SigningIdentity)

/-- The identities that could be loaded, in the order of their file names. -/
structure CertificateDatabase where
  entries : List SigningIdentity
  deriving DecidableEq, Repr

namespace CertificateDatabase

def certificateExtensions : List String := ["pem", "crt", "cer", "der"]

def keyExtension : String := "key"

def isCertificateName (name : String) : Bool :=
  match (Path.splitName name).2 with
  | some e => certificateExtensions.contains (lowerCase e)
  | none => false

def readFile (fs : FileSystem) (path : String) : Except Error Bytes :=
  match fs.readFile path with
  | .ok b => .ok b
  | .error f => .error (.io (.reading path) f)

/-- The private key that is kept for a certificate; it is left out with a warning when it belongs
to another one. -/
def loadKey (fs : FileSystem) (path nickname : String) (c : X509.Certificate) :
    Except Error (Option Key.PrivateKey × List Warning) := do
  if !fs.isFile path then return (none, [])
  let some key := Key.PrivateKey.ofFile? (← readFile fs path) | throw .cryptographic
  let some certified := c.publicKey? | throw .cryptographic
  if certified.sameAs key.publicKey then return (some key, [])
  return (none, [.keyMismatch path nickname])

def loadEntry (fs : FileSystem) (directory name : String) :
    Except Error (SigningIdentity × List Warning) := do
  let some certificate := X509.Certificate.ofFile? (← readFile fs (Path.join directory name))
    | throw .cryptographic
  let nickname := (Path.splitName name).1
  let keyPath := Path.join directory (nickname ++ "." ++ keyExtension)
  let (key, warnings) ← loadKey fs keyPath nickname certificate
  return (⟨nickname, certificate, key⟩, warnings)

/-- Loads certificate files in turn, passing over those that fail. -/
def loadEntries (fs : FileSystem) (directory : String) :
    List String → List SigningIdentity × List Warning
  | [] => ([], [])
  | name :: names =>
    let (entries, warnings) := loadEntries fs directory names
    match loadEntry fs directory name with
    | .ok (e, ws) => (e :: entries, ws ++ warnings)
    | .error _ => (entries, .skipped (Path.join directory name) :: warnings)

/-- The database in a directory, read in the order of file names. -/
def load (fs : FileSystem) (directory : String) :
    Except Error (CertificateDatabase × List Warning) :=
  match fs.list directory with
  | .ok names =>
    let files := (names.filter isCertificateName).mergeSort fun a b => a ≤ b
    let (entries, warnings) := loadEntries fs directory files
    .ok (⟨entries⟩, warnings)
  | .error f => .error (.io (.openingCertificates directory) f)

/-- The one identity that a name means, among those with a private key if that is asked for. -/
def find (d : CertificateDatabase) (name : String) (withKey : Bool) :
    Except Error SigningIdentity :=
  match d.entries.filter fun e => e.isNamed name && (!withKey || e.privateKey.isSome) with
  | [] => .error (.certificateNotFound name)
  | [e] => .ok e
  | several => .error (.certificate (.ambiguous name several.length))

end CertificateDatabase

end Authenticode
