import Authenticode.Action
import Authenticode.Bytes
import Authenticode.FileSystem.Failure

/-!
# Failures and their diagnostics

Every operation of the library fails with an `Error`: a cause, not a text. Causes
fall into kinds; the kind fixes the lead-in of the message, the line printed when
a run fails, and the help and code of the longer report.

Where a cause was found below this library — by the big-number and certificate
code, the header reader, the configuration grammar — the finding's own wording is
not kept, and the message says `*` in its place.
-/
namespace Authenticode

/-- What stands for wording that is not kept. -/
def unworded : String := "*"

/-- What was being done with a file when the system refused. -/
inductive Activity
  | openingArtifactInput (role : Artifact) (path : String)
  | readingArtifact (role : Artifact) (path : String)
  | openingArtifactOutput (role : Artifact) (path : String)
  | writingArtifact (role : Artifact) (path : String)
  | closing (path : String)
  | openingInput
  | readingInput
  | openingOutput
  | writingOutput
  | openingCertificates (directory : String)
  | reading (path : String)
  | other
  deriving DecidableEq, Repr

def Activity.description : Activity → String
  | openingArtifactInput r p => s!"Error opening {r.description} file \"{p}\" for input"
  | readingArtifact r p => s!"Error reading {r.description} file \"{p}\""
  | openingArtifactOutput r p => s!"Error opening {r.description} file \"{p}\" for output"
  | writingArtifact r p => s!"Error writing {r.description} file \"{p}\""
  | closing p => s!"Error closing \"{p}\""
  | openingInput => "Error opening input"
  | readingInput => "Error reading input"
  | openingOutput => "Error opening output"
  | writingOutput => "Error writing output"
  | openingCertificates d => s!"Could not open certificate database \"{d}\""
  | reading p => s!"reading {p}"
  | other => "I/O error"

/-- A path or name that the run needs and was not given. -/
inductive Missing
  | input
  | output
  | artifactInput (role : Artifact)
  | artifactOutput (role : Artifact)
  | certificateName
  deriving DecidableEq, Repr

def Missing.message : Missing → String
  | input => "No input file specified."
  | output => "No output file specified."
  | artifactInput r => s!"No input file specified for {r.description}"
  | artifactOutput r => s!"No output file specified for {r.description}."
  | certificateName => "No certificate specified."

/-- What has to hold before a run writes. -/
inductive Precondition
  | outputExists (path : String)
  | inPlace
  deriving DecidableEq, Repr

def Precondition.message : Precondition → String
  | outputExists p => s!"\"{p}\" exists and --force was not given."
  | inPlace => "in-place file editing is not yet supported"

inductive ImageFault
  /-- The header reader gave up. -/
  | unreadableHeader
  | noOptionalHeader
  | noCertificateDirectory
  | inconsistentHeaderSize (sizeOfHeaders : Nat)
  | truncated (offset : Nat)
  /-- The directory entry names octets behind the end of the file. -/
  | tableOutside (offset size : Nat)
  | tableUnavailable
  | tableNotAtEnd
  | sectionOutside (name : String)
  | checksumOutside
  | offsetTooLarge (offset : Nat)
  /-- The input of a run is no usable image. -/
  | unloadable (fault : ImageFault)
  deriving DecidableEq, Repr

namespace ImageFault

def message : ImageFault → String
  | unreadableHeader => unworded
  | noOptionalHeader => "image has no optional header"
  | noCertificateDirectory => "image has no certificate table directory"
  | inconsistentHeaderSize n => s!"SizeOfHeaders {hexMarked 1 n} is inconsistent with the image"
  | truncated n => s!"truncated image at offset {hexMarked 1 n}"
  | tableOutside o n =>
    s!"certificate table ({hexMarked 1 o}+{hexMarked 1 n}) points outside the file"
  | tableUnavailable => "certificate table points outside the file"
  | tableNotAtEnd => "certificate table is not at the end of the image"
  | sectionOutside name => s!"section {name} extends past the end of the file"
  | checksumOutside => "checksum field lies outside the image"
  | offsetTooLarge n => s!"offset {hexMarked 1 n} exceeds 32 bits"
  | unloadable f => s!"could not load input file: {message f}"

/-- Whether the message ends in wording that is not kept. -/
def isUnworded : ImageFault → Bool
  | unreadableHeader => true
  | unloadable f => isUnworded f
  | _ => false

end ImageFault

inductive DerFault
  | emptyInput
  | highTag
  | missingLength
  | indefiniteLength
  | lengthTooLarge
  | truncatedLength
  | overrun
  deriving DecidableEq, Repr

def DerFault.message : DerFault → String
  | emptyInput => "empty input"
  | highTag => "high tag numbers are not supported"
  | missingLength => "missing length"
  | indefiniteLength => "indefinite length"
  | lengthTooLarge => "length too large"
  | truncatedLength => "truncated length"
  | overrun => "element runs past the end of its container"

inductive ArmorFault
  | framing
  | missingBegin
  | missingEnd
  | mismatch (opening closing : String)
  | invalidData
  deriving DecidableEq, Repr

def ArmorFault.message : ArmorFault → String
  | framing => "malformedframing"
  | missingBegin => "missing BEGIN tag"
  | missingEnd => "missing END tag"
  | mismatch b e => s!"mismatching BEGIN (\"{b}\") and END (\"{e}\") tags"
  | invalidData => "invalid data: " ++ unworded

inductive SignatureFault
  | der (fault : DerFault)
  | armor (fault : ArmorFault)
  | notSequence
  | notSignedData
  | missingContent
  | tooLarge (length : Nat)
  | truncatedEntry (position : Nat)
  | entryLength (length position : Nat)
  | entryRevision (revision : Nat)
  | entryType (type : Nat)
  | emptyRawSignature
  | attributesNotSet (tag : Nat)
  | attributeNotSequence
  | attributesOfOtherImage
  | unreadableList
  /-- A value that its ASN.1 type cannot hold. -/
  | unencodable
  deriving DecidableEq, Repr

namespace SignatureFault

def message : SignatureFault → String
  | der f => s!"malformed DER: {f.message}"
  | armor f => s!"invalid PEM armor: {f.message}"
  | notSequence => "signature is not a DER SEQUENCE"
  | notSignedData => "signature is not a PKCS#7 SignedData structure"
  | missingContent => "missing SignedData content"
  | tooLarge n => s!"signature of {n} bytes is too large"
  | truncatedEntry p => s!"truncated WIN_CERTIFICATE header at table offset {p}"
  | entryLength n p => s!"WIN_CERTIFICATE length {n} invalid at table offset {p}"
  | entryRevision n => s!"unsupported WIN_CERTIFICATE revision {hexMarked 4 n}"
  | entryType n => s!"unsupported WIN_CERTIFICATE type {hexMarked 4 n}"
  | emptyRawSignature => "raw signature is empty"
  | attributesNotSet t => s!"signed attributes must be a DER SET, found tag {hexMarked 2 t}"
  | attributeNotSequence => "signed attribute is not a SEQUENCE"
  | attributesOfOtherImage => "signed attributes do not match the digest of this image"
  | unreadableList => "could not parse signature list in EFI binary"
  | unencodable => "ASN.1 encoding error: " ++ unworded

def isUnworded : SignatureFault → Bool
  | armor .invalidData | unencodable => true
  | _ => false

end SignatureFault

inductive CertificateFault
  | noPrivateKey (nickname : String)
  | ambiguous (name : String) (matched : Nat)
  | unsupportedKey (type : Nat)
  deriving DecidableEq, Repr

def CertificateFault.message : CertificateFault → String
  | noPrivateKey n => s!"certificate {n} has no private key available"
  | ambiguous n k => s!"certificate name {n} is ambiguous ({k} matches)"
  | unsupportedKey t => s!"unsupported public key type Id({t})"

inductive InputFault
  | unknownDigest (name : String)
  | nothingToDo
  deriving DecidableEq, Repr

def InputFault.message : InputFault → String
  | unknownDigest n => s!"Unknown digest type \"{n}\""
  | nothingToDo => "Nothing to do."

/-- A state that the workflows never reach on their own. -/
inductive Inconsistency
  | noCertificateSelected
  | inputNotOpen
  | outputNotOpen
  | listExceedsReservation (needed reserved : Nat)
  | spaceTooSmall (reserved required : Nat)
  | digestAlgorithm (computed signing : String)
  | digestChanged
  deriving DecidableEq, Repr

def Inconsistency.message : Inconsistency → String
  | noCertificateSelected => "no certificate selected"
  | inputNotOpen => "input image is not open"
  | outputNotOpen => "output image is not open"
  | listExceedsReservation n r => s!"signature list needs {n} bytes but only {r} are reserved"
  | spaceTooSmall r n => s!"certificate table holds {r} bytes but {n} are needed"
  | digestAlgorithm c s => s!"digest computed with {c} but signing with {s}"
  | digestChanged => "image digest changed while reserving signature space"

inductive ConfigurationFault
  | unreadable (path : String) (failure : IoFailure)
  /-- The text breaks the grammar, or a value has the wrong type. -/
  | malformed
  | invalidDigest (name : String)
  | emptyDirectory
  | blankCertificate
  deriving DecidableEq, Repr

def ConfigurationFault.message : ConfigurationFault → String
  | unreadable p f => s!"Failed to read config file {p}: {f.message}"
  | malformed => unworded
  | invalidDigest n => s!"Invalid digest algorithm: {n}"
  | emptyDirectory => "certificate_directory must not be empty"
  | blankCertificate => "default_certificate must not be blank"

inductive Error
  | missing (what : Missing)
  | io (activity : Activity) (failure : IoFailure)
  | precondition (which : Precondition)
  | image (fault : ImageFault)
  | signature (fault : SignatureFault)
  | certificateNotFound (name : String)
  | certificate (fault : CertificateFault)
  | cryptographic
  /-- An index that is refused before the list is looked at. -/
  | signatureNumber
  | signatureIndex (index last : Int)
  | noSuchSignature (index : Int)
  | incompatible (actions : ActionSet)
  | invalidInput (fault : InputFault)
  | inconsistent (what : Inconsistency)
  | configuration (fault : ConfigurationFault)
  /-- The run stopped at an access outside a buffer; it has no diagnostic. -/
  | aborted
  deriving DecidableEq, Repr

inductive ErrorKind
  | missingPath
  | io
  | precondition
  | peParsing
  | malformedSignature
  | certificateNotFound
  | certificate
  | cryptographic
  | invalidSignatureNumber
  | signatureIndexOutOfRange
  | noSuchSignature
  | incompatibleFlags
  | invalidInput
  | internalConsistency
  | configuration
  | aborted
  deriving DecidableEq, Repr

namespace ErrorKind

def all : List ErrorKind :=
  [missingPath, io, precondition, peParsing, malformedSignature, certificateNotFound, certificate,
    cryptographic, invalidSignatureNumber, signatureIndexOutOfRange, noSuchSignature,
    incompatibleFlags, invalidInput, internalConsistency, configuration, aborted]

def name : ErrorKind → String
  | missingPath => "MissingPath"
  | io => "Io"
  | precondition => "Precondition"
  | peParsing => "PeParsing"
  | malformedSignature => "MalformedSignature"
  | certificateNotFound => "CertificateNotFound"
  | certificate => "Certificate"
  | cryptographic => "Cryptographic"
  | invalidSignatureNumber => "InvalidSignatureNumber"
  | signatureIndexOutOfRange => "SignatureIndexOutOfRange"
  | noSuchSignature => "NoSuchSignature"
  | incompatibleFlags => "IncompatibleFlags"
  | invalidInput => "InvalidInput"
  | internalConsistency => "InternalConsistency"
  | configuration => "Configuration"
  | aborted => "panic"

def lead : ErrorKind → String
  | certificateNotFound => "Could not find certificate "
  | cryptographic => "cryptographic operation failed: "
  | internalConsistency => "internal consistency check failed: "
  | configuration => "Configuration error: "
  | _ => ""

def help? : ErrorKind → Option String
  | missingPath => some "pass the file with its command-line option"
  | certificateNotFound =>
    some "certificates are matched by file stem or subject common name in the --certdir directory"
  | signatureIndexOutOfRange | noSuchSignature => some "list the embedded signatures with -S"
  | _ => none

def code? : ErrorKind → Option String
  | missingPath => some "pesign::missing_path"
  | precondition => some "pesign::precondition"
  | peParsing => some "pesign::pe_parsing"
  | malformedSignature => some "pesign::malformed_signature"
  | certificateNotFound => some "pesign::certificate_not_found"
  | signatureIndexOutOfRange | noSuchSignature => some "pesign::signature_index"
  | incompatibleFlags => some "pesign::incompatible_flags"
  | configuration => some "pesign::configuration"
  | _ => none

/-- Index and combination failures are printed without the program's name. -/
def isBare : ErrorKind → Bool
  | invalidSignatureNumber | signatureIndexOutOfRange | noSuchSignature | incompatibleFlags => true
  | _ => false

end ErrorKind

structure Report where
  kind : ErrorKind
  text : String
  /-- The system's words, for failures of the operating system. -/
  cause : Option String
  deriving DecidableEq, Repr

namespace Report

def ofDetail (kind : ErrorKind) (detail : String) : Report := ⟨kind, kind.lead ++ detail, none⟩

def ofIo (circumstances : String) (failure : IoFailure) : Report :=
  ⟨.io, circumstances ++ ": " ++ failure.message, some failure.message⟩

def line (r : Report) : String := if r.kind.isBare then r.text else "pesign: " ++ r.text

/-- The longer report, with severity, cause, advice and code. -/
def narrative (r : Report) : String :=
  let part (lead : String) : Option String → String
    | some s => lead ++ s ++ "\n"
    | none => ""
  r.text ++ "\n    Diagnostic severity: error\n" ++ part "    Caused by: " r.cause
    ++ part "diagnostic help: " r.kind.help? ++ part "diagnostic code: " r.kind.code?

end Report

namespace Error

def report : Error → Report
  | missing w => .ofDetail .missingPath w.message
  | io a f => .ofIo a.description f
  | precondition p => .ofDetail .precondition p.message
  | image f => .ofDetail .peParsing f.message
  | signature f => .ofDetail .malformedSignature f.message
  | certificateNotFound n => .ofDetail .certificateNotFound n
  | certificate f => .ofDetail .certificate f.message
  | cryptographic => .ofDetail .cryptographic unworded
  | signatureNumber => .ofDetail .invalidSignatureNumber "Invalid signature number."
  | signatureIndex i last =>
    .ofDetail .signatureIndexOutOfRange
      s!"Invalid signature number {i}. Must be between 0 and {last}."
  | noSuchSignature i => .ofDetail .noSuchSignature s!"No valid signature #{i}."
  | incompatible s =>
    .ofDetail .incompatibleFlags
      (s!"Incompatible flags ({hexMarked 8 s.bits.toNat}): " ++ String.intercalate " " s.names)
  | invalidInput f => .ofDetail .invalidInput f.message
  | inconsistent w => .ofDetail .internalConsistency w.message
  | configuration f => .ofDetail .configuration f.message
  | aborted => .ofDetail .aborted ""

def kind (e : Error) : ErrorKind := e.report.kind

def message (e : Error) : String := e.report.text

/-- The line printed when a run fails with this error. -/
def line (e : Error) : String := e.report.line

def isUnworded : Error → Bool
  | image f => f.isUnworded
  | signature f => f.isUnworded
  | cryptographic | configuration .malformed => true
  | _ => false

end Error

inductive Warning
  /-- Octets stand behind the certificate table, so that clearing it could not cut it off. -/
  | tableNotAtEnd (offset size fileLength : Nat)
  /-- A certificate file that could not be loaded. -/
  | skipped (path : String)
  /-- A key file that belongs to another certificate. -/
  | keyMismatch (keyPath nickname : String)
  deriving DecidableEq, Repr

/-- The text that is logged; of a skipped file the reason is not kept. -/
def Warning.text : Warning → String
  | tableNotAtEnd o n len =>
    s!"certificate table not at EOF (pos={hexMarked 1 o}, len={hexMarked 1 n}, " ++
      s!"filelen={hexMarked 1 len}): clearing directory entry without truncating"
  | skipped path => s!"skipping {path}: *"
  | keyMismatch key name => s!"{key} does not match certificate {name}; ignoring key"

end Authenticode
