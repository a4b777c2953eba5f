import Authenticode.Digest

/-!
# Command line arguments

Arguments are read from left to right. A flag stands alone; a setting has a value,
attached to it or in the next argument. The first argument that is wrong ends the
reading, and so does a request for help or for the version.
-/
namespace Authenticode.CommandLine

inductive Flag
  | force
  | asciiArmor
  | padding
  | hash
  | omitVendorCertificate
  | sign
  | removeSignature
  | listSignatures
  | verbose
  | help
  | version
  deriving DecidableEq, Repr

inductive Setting
  | input
  | output
  | certificate
  | certificateDirectory
  | signatureNumber
  | digestType
  | exportSignature
  | importSignature
  | importRawSignature
  | importSignedAttributes
  | exportSignedAttributes
  | exportPublicKey
  | exportCertificate
  | configuration
  deriving DecidableEq, Repr

inductive Parameter
  | flag (f : Flag)
  | setting (s : Setting)
  deriving DecidableEq, Repr

/-- The parameters with their letters, if they have one, their long names and what they do. -/
def parameters : List (Option Char × String × Parameter × String) :=
  [(some 'i', "in", .setting .input, "image to read"),
    (some 'o', "out", .setting .output, "image to write"),
    (some 'c', "certificate", .setting .certificate, "certificate nickname or common name"),
    (some 'n', "certdir", .setting .certificateDirectory, "certificate database directory"),
    (some 'f', "force", .flag .force, "overwrite existing output files"),
    (some 'u', "signature-number", .setting .signatureNumber, "signature index to operate on"),
    (some 'd', "digest-type", .setting .digestType, "sha256, sha384 or sha512"),
    (some 'a', "ascii-armor", .flag .asciiArmor, "armor exported files"),
    (some 'P', "padding", .flag .padding, "pad the image when hashing"),
    (some 'h', "hash", .flag .hash, "print the image digest"),
    (some 'O', "omit-vendor-cert", .flag .omitVendorCertificate,
      "leave the vendor certificates out of the printed digest"),
    (some 's', "sign", .flag .sign, "generate a signature"),
    (some 'e', "export-signature", .setting .exportSignature, "write a signature to a file"),
    (some 'm', "import-signature", .setting .importSignature, "read a signature from a file"),
    (some 'R', "import-raw-signature", .setting .importRawSignature,
      "read a raw signature value from a file"),
    (some 'I', "import-signed-attributes", .setting .importSignedAttributes,
      "read signed attributes from a file"),
    (some 'E', "export-signed-attributes", .setting .exportSignedAttributes,
      "write signed attributes to a file"),
    (some 'K', "export-pubkey", .setting .exportPublicKey, "write the public key to a file"),
    (some 'C', "export-cert", .setting .exportCertificate, "write the certificate to a file"),
    (some 'r', "remove-signature", .flag .removeSignature, "remove a signature"),
    (some 'S', "list-signatures", .flag .listSignatures, "list embedded signatures"),
    (none, "config", .setting .configuration, "configuration file"),
    (some 'v', "verbose", .flag .verbose, "verbose logging"),
    (none, "help", .flag .help, "print help"),
    (some 'V', "version", .flag .version, "print version")]

def ofLetter? (c : Char) : Option Parameter :=
  (parameters.find? fun p => p.1 == some c).map fun p => p.2.2.1

def ofLongName? (name : String) : Option Parameter :=
  (parameters.find? fun p => p.2.1 == name).map fun p => p.2.2.1

structure Arguments where
  flags : List Flag
  values : List (Setting × String)
  deriving DecidableEq, Repr

inductive Stop
  | help
  | version
  /-- An argument is wrong. -/
  | usage
  deriving DecidableEq, Repr

namespace Arguments

def empty : Arguments := ⟨[], []⟩

def has (a : Arguments) (f : Flag) : Bool := a.flags.contains f

def value? (a : Arguments) (s : Setting) : Option String := a.values.lookup s

end Arguments

/-- The number of 64 bits that a text spells, perhaps with a sign. -/
def number? (text : String) : Option Int := do
  let (negative, digits) := match text.toList with
    | '-' :: ds => (true, ds)
    | '+' :: ds => (false, ds)
    | ds => (false, ds)
  guard (digits ≠ [] && digits.all Char.isDigit)
  let n : Nat := digits.foldl (fun n c => 10 * n + (c.toNat - '0'.toNat)) 0
  let i : Int := if negative then -n else n
  guard (-0x8000000000000000 ≤ i && i < 0x8000000000000000)
  return i

def Setting.accepts (s : Setting) (text : String) : Bool :=
  match s with
  | .certificate => true
  | .signatureNumber => (number? text).isSome
  | .digestType => (HashAlgorithm.parse text).isOk
  | _ => text ≠ ""

def Arguments.give (a : Arguments) (s : Setting) (text : String) : Except Stop Arguments :=
  if s.accepts text ∧ (a.value? s).isNone then .ok { a with values := (s, text) :: a.values }
  else .error .usage

def Arguments.raise (a : Arguments) (f : Flag) : Except Stop Arguments :=
  match f with
  | .help => .error .help
  | .version => .error .version
  | _ => if a.has f then .error .usage else .ok { a with flags := f :: a.flags }

/-- What follows an argument: its setting may still want a value. -/
abbrev Progress := Arguments × Option Setting

/-- Reads the letters of an argument behind its dash. A letter that wants a value takes the rest,
less an equals sign. -/
def readLetters (a : Arguments) : List Char → Except Stop Progress
  | [] => .ok (a, none)
  | c :: cs =>
    match ofLetter? c with
    | none => .error .usage
    | some (.flag f) => do readLetters (← a.raise f) cs
    | some (.setting s) =>
      match cs with
      | [] => .ok (a, some s)
      | '=' :: value => do return (← a.give s (String.ofList value), none)
      | value => do return (← a.give s (String.ofList value), none)

/-- Reads an argument behind its two dashes, with the value it may hold behind an equals sign. -/
def readLong (a : Arguments) (text : List Char) : Except Stop Progress :=
  let name := text.takeWhile (· ≠ '=')
  let value := (text.drop name.length).tail?.map String.ofList
  match ofLongName? (String.ofList name), value with
  | some (.flag f), none => do return (← a.raise f, none)
  | some (.setting s), none => .ok (a, some s)
  | some (.setting s), some v => do return (← a.give s v, none)
  | _, _ => .error .usage

/-- Whether an argument is the value that a setting waits for, although it may start with a dash. -/
def isValueFor (s : Setting) : List Char → Bool
  | '-' :: c :: cs => s = .signatureNumber && (c :: cs).all Char.isDigit
  | _ => true

def readFrom (a : Arguments) : Option Setting → List String → Except Stop Arguments
  | none, [] => .ok a
  | some _, [] => .error .usage
  | some s, text :: rest =>
    if isValueFor s text.toList then do readFrom (← a.give s text) none rest else .error .usage
  | none, text :: rest =>
    match text.toList with
    | '-' :: '-' :: [] => if rest = [] then .ok a else .error .usage
    | '-' :: '-' :: cs => do
      let (a, waiting) ← readLong a cs
      readFrom a waiting rest
    | '-' :: c :: cs => do
      let (a, waiting) ← readLetters a (c :: cs)
      readFrom a waiting rest
    | _ => .error .usage

def read (arguments : List String) : Except Stop Arguments := readFrom .empty none arguments

end Authenticode.CommandLine
