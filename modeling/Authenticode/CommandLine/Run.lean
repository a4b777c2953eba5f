import Authenticode.CommandLine.Arguments
import Authenticode.Session.Workflows

/-!
# Running a command line

The arguments ask for actions and give options; what they leave out comes from a
configuration file. One run then performs the workflow of the actions. How it ended
decides the exit status and what is told to the user.
-/
namespace Authenticode.CommandLine

def programName : String := "pesign"

def versionText : String := programName ++ " 0.1.0\n"

def helpLine (p : Option Char × String × Parameter × String) : String :=
  let (letter, name, kind, about) := p
  let short := match letter with
    | some c => String.ofList ['-', c] ++ ", "
    | none => "    "
  let value := match kind with
    | .flag _ => ""
    | .setting _ => " <VALUE>"
  "  " ++ short ++ "--" ++ name ++ value ++ "  " ++ about ++ "\n"

def usageText : String := "Usage: " ++ programName ++ " [OPTIONS]\n"

def helpText : String := usageText ++ "\nOptions:\n" ++ String.join (parameters.map helpLine)

/-- The actions that arguments ask for. A new signature is embedded unless it is exported. -/
def Arguments.actions (a : Arguments) : ActionSet :=
  let given (s : Setting) (action : Action) : List Action :=
    if (a.value? s).isSome then [action] else []
  let raised (f : Flag) (actions : List Action) : List Action := if a.has f then actions else []
  .ofList <| raised .hash [.generateDigest, .printDigest]
    ++ raised .omitVendorCertificate [.omitVendorCertificate]
    ++ raised .sign (.generateSignature ::
      if (a.value? .exportSignature).isNone then [.importSignature] else [])
    ++ given .exportSignature .exportSignature
    ++ given .importSignature .importSignature
    ++ given .importRawSignature .importRawSignature
    ++ given .importSignedAttributes .importSignedAttributes
    ++ given .exportSignedAttributes .exportSignedAttributes
    ++ given .exportPublicKey .exportPublicKey
    ++ given .exportCertificate .exportCertificate
    ++ raised .removeSignature [.removeSignature]
    ++ raised .listSignatures [.listSignatures]

/-- The directory of configurations, from the directory the user set for them and the user's own. -/
def configurationDirectory (set home : Option String) : Option String :=
  set.filter Path.isAbsolute <|> home.map (Path.join · ".config")

def configurationPath : Option String → String
  | some directory => Path.join (Path.join directory programName) "config.toml"
  | none => programName ++ "-config.toml"

/-- The configuration for a command line: the file it names, or the user's own if there is one. -/
def Arguments.configuration (a : Arguments) (files : FileSystem) (directory : Option String) :
    Except Error Configuration :=
  match a.value? .configuration with
  | some path => Configuration.load files path
  | none => Configuration.loadOrStandard files (configurationPath directory)

/-- The options of a run: those of the command line before those of the configuration. -/
def Arguments.options (a : Arguments) (c : Configuration) : Except Error Options := do
  let digest ← match a.value? .digestType with
    | some name => HashAlgorithm.parse name
    | none => c.digestAlgorithm
  return {
    input := a.value? .input
    output := a.value? .output
    certificateName := a.value? .certificate <|> c.defaultCertificate
    certificateDirectory := (a.value? .certificateDirectory).getD c.certificateDirectory
    signatureNumber := (a.value? .signatureNumber).bind number?
    force := a.has .force
    armored := a.has .asciiArmor || c.asciiArmor
    padding := a.has .padding || c.padding
    digest
    rawSignature := a.value? .importRawSignature
    attributesInput := a.value? .importSignedAttributes
    attributesOutput := a.value? .exportSignedAttributes
    signatureInput := a.value? .importSignature
    signatureOutput := a.value? .exportSignature
    publicKeyOutput := a.value? .exportPublicKey
    certificateOutput := a.value? .exportCertificate }

/-- The paths that a command line may follow, as far as the files at hand tell. The configuration
comes first, since it may name the certificate directory. -/
def paths (directory : Option String) (files : FileSystem) (arguments : List String) :
    List String :=
  match read arguments with
  | .error _ => []
  | .ok a =>
    (a.value? .configuration).getD (configurationPath directory) ::
      match a.configuration files directory >>= a.options with
      | .error _ => []
      | .ok options => options.paths

inductive Ending
  | stopped (why : Stop)
  | succeeded
  | failed (e : Error)
  deriving DecidableEq, Repr

/-- What a command line leaves: how it ended, what it printed, and the files. -/
structure Outcome where
  ending : Ending
  printed : String
  warnings : List Warning
  files : FileSystem
  deriving DecidableEq, Repr

namespace Outcome

/-- What the program exits with; 101 stands for a run that was stopped from below. -/
def exitStatus (o : Outcome) : Nat :=
  match o.ending with
  | .stopped .help | .stopped .version | .succeeded => 0
  | .stopped .usage => 1
  | .failed .aborted => 101
  | .failed _ => 1

def standardOutput (o : Outcome) : String :=
  match o.ending with
  | .stopped .help => helpText
  | .stopped .version => versionText
  | _ => o.printed

def standardError (o : Outcome) : String :=
  match o.ending with
  | .stopped .usage => usageText
  | .failed e => e.line ++ "\n"
  | _ => ""

end Outcome

/-- Performs a command line at a time in seconds from 1970, with the random numbers for it. -/
def run (directory : Option String) (now : Int) (files : FileSystem) (arguments : List String)
    (draws : List Nat := [1]) : Outcome :=
  match read arguments with
  | .error why => ⟨.stopped why, "", [], files⟩
  | .ok a =>
    match a.configuration files directory >>= a.options with
    | .error e => ⟨.failed e, "", [], files⟩
    | .ok options =>
      match Session.perform a.actions { options, now, files, draws } with
      | .ok _ s => ⟨.succeeded, s.printed, s.warnings, s.files⟩
      | .error e s => ⟨.failed e, s.printed, s.warnings, s.files⟩

end Authenticode.CommandLine
