import Authenticode.Digest
import Authenticode.FileSystem.Basic
import Authenticode.Text
import Authenticode.Toml.Document

/-!
# Configuration

Defaults for options that the command line leaves out. They are read from a settings
file, in which every key may be missing and keys without a meaning are passed over.
-/
namespace Authenticode

/-- The options that a settings file can give. -/
structure Configuration where
  /-- The directory of certificates and their keys. -/
  certificateDirectory : String
  /-- The digest algorithm as the user wrote it. -/
  defaultDigest : String
  defaultCertificate : Option String
  /-- Whether printed digests cover the alignment of a certificate table. -/
  padding : Bool
  /-- Whether exported files are armored. -/
  asciiArmor : Bool
  deriving DecidableEq, Repr

namespace Configuration

def standardDirectory : String := "/etc/pki/pesign"

def standard : Configuration := ⟨standardDirectory, "sha256", none, false, false⟩

def text? (t : Toml.Table) (name : String) : Except Error (Option String) :=
  match t.value? name with
  | none => .ok none
  | some (.text s) => .ok (some s)
  | some _ => .error (.configuration .malformed)

def boolean? (t : Toml.Table) (name : String) : Except Error (Option Bool) :=
  match t.value? name with
  | none => .ok none
  | some (.boolean b) => .ok (some b)
  | some _ => .error (.configuration .malformed)

def ofTable (t : Toml.Table) : Except Error Configuration := do
  return {
    certificateDirectory := (← text? t "certificate_directory").getD standard.certificateDirectory
    defaultDigest := (← text? t "default_digest").getD standard.defaultDigest
    defaultCertificate := ← text? t "default_certificate"
    padding := (← boolean? t "padding").getD standard.padding
    asciiArmor := (← boolean? t "ascii_armor").getD standard.asciiArmor }

def digestAlgorithm (c : Configuration) : Except Error HashAlgorithm :=
  match HashAlgorithm.parse c.defaultDigest with
  | .ok a => .ok a
  | .error _ => .error (.configuration (.invalidDigest c.defaultDigest))

/-- Refuses values that no run could use. -/
def check (c : Configuration) : Except Error Unit := do
  let _ ← c.digestAlgorithm
  if c.certificateDirectory = "" then throw (.configuration .emptyDirectory)
  if c.defaultCertificate.any fun name => name.toList.all Text.isBlank then
    throw (.configuration .blankCertificate)

/-- The configuration that a text gives, if it can be used. -/
def parse (text : String) : Except Error Configuration := do
  let some table := Toml.Document.parse? text.toList | throw (.configuration .malformed)
  let c ← ofTable table
  c.check
  return c

def readText (fs : FileSystem) (path : String) : Except IoFailure String := do
  match (← fs.readFile path).toText? with
  | some text => return text
  | none => throw .notUtf8

def load (fs : FileSystem) (path : String) : Except Error Configuration :=
  match readText fs path with
  | .ok text => parse text
  | .error f => .error (.configuration (.unreadable path f))

/-- The configuration in a file, or the standard one where the file is missing. -/
def loadOrStandard (fs : FileSystem) (path : String) : Except Error Configuration :=
  if fs.contains path then load fs path else .ok standard

end Configuration

end Authenticode
