/-!
# Requested actions

An invocation asks for a set of elementary actions, kept as bits. Twelve sets
name one of the supported workflows; every other set is refused. Besides the image
itself a run reads or writes single opaque files, one for each of five roles.
-/
namespace Authenticode

/-- The elementary actions, in the order of their bits. -/
inductive Action
  | generateDigest
  | generateSignature
  | importRawSignature
  | importSignature
  | importSignedAttributes
  | exportSignedAttributes
  | exportSignature
  | exportPublicKey
  | exportCertificate
  | removeSignature
  | listSignatures
  | printDigest
  | omitVendorCertificate
  deriving DecidableEq, Repr

namespace Action

def all : List Action :=
  [generateDigest, generateSignature, importRawSignature, importSignature, importSignedAttributes,
    exportSignedAttributes, exportSignature, exportPublicKey, exportCertificate, removeSignature,
    listSignatures, printDigest, omitVendorCertificate]

def name : Action → String
  | generateDigest => "GENERATE_DIGEST"
  | generateSignature => "GENERATE_SIGNATURE"
  | importRawSignature => "IMPORT_RAW_SIGNATURE"
  | importSignature => "IMPORT_SIGNATURE"
  | importSignedAttributes => "IMPORT_SATTRS"
  | exportSignedAttributes => "EXPORT_SATTRS"
  | exportSignature => "EXPORT_SIGNATURE"
  | exportPublicKey => "EXPORT_PUBKEY"
  | exportCertificate => "EXPORT_CERT"
  | removeSignature => "REMOVE_SIGNATURE"
  | listSignatures => "LIST_SIGNATURES"
  | printDigest => "PRINT_DIGEST"
  | omitVendorCertificate => "OMIT_VENDOR_CERT"

def bit : Action → UInt32
  | generateDigest => 0x0001
  | generateSignature => 0x0002
  | importRawSignature => 0x0004
  | importSignature => 0x0008
  | importSignedAttributes => 0x0010
  | exportSignedAttributes => 0x0020
  | exportSignature => 0x0040
  | exportPublicKey => 0x0080
  | exportCertificate => 0x0100
  | removeSignature => 0x0200
  | listSignatures => 0x0400
  | printDigest => 0x0800
  | omitVendorCertificate => 0x1000

def ofName? (name : String) : Option Action := all.find? fun a => a.name == name

end Action

/-- A set of actions; bits that stand for no action are kept as well. -/
structure ActionSet where
  bits : UInt32
  deriving DecidableEq, Repr

namespace ActionSet

def empty : ActionSet := ⟨0⟩

def insert (s : ActionSet) (a : Action) : ActionSet := ⟨s.bits ||| a.bit⟩

def ofList (actions : List Action) : ActionSet := actions.foldl insert empty

def contains (s : ActionSet) (a : Action) : Bool := s.bits &&& a.bit != 0

/-- The names of the actions in the set, lowest bit first. -/
def names (s : ActionSet) : List String := (Action.all.filter s.contains).map Action.name

end ActionSet

inductive Workflow
  | importRawSignature
  | exportSignedAttributes
  | importSignature
  | exportPublicKey
  | exportCertificate
  | exportSignature
  | removeSignature
  | listSignatures
  | printDigest (omitVendorCertificate : Bool)
  | generateAndExportSignature
  | generateAndEmbedSignature
  deriving DecidableEq, Repr

namespace Workflow

/-- The sets of actions that select a workflow. -/
def selections : List (ActionSet × Workflow) :=
  [(.ofList [.importRawSignature, .importSignedAttributes], importRawSignature),
    (.ofList [.exportSignedAttributes], exportSignedAttributes),
    (.ofList [.importSignature], importSignature),
    (.ofList [.exportPublicKey], exportPublicKey),
    (.ofList [.exportCertificate], exportCertificate),
    (.ofList [.exportSignature], exportSignature),
    (.ofList [.removeSignature], removeSignature),
    (.ofList [.listSignatures], listSignatures),
    (.ofList [.generateDigest, .printDigest], printDigest false),
    (.ofList [.generateDigest, .printDigest, .omitVendorCertificate], printDigest true),
    (.ofList [.exportSignature, .generateSignature], generateAndExportSignature),
    (.ofList [.importSignature, .generateSignature], generateAndEmbedSignature)]

def select? (actions : ActionSet) : Option Workflow :=
  (selections.find? fun p => p.1 == actions).map Prod.snd

def writesImage : Workflow → Bool
  | importRawSignature | importSignature | removeSignature | generateAndEmbedSignature => true
  | _ => false

def describe : Workflow → String
  | importRawSignature => "ImportRawSignature"
  | exportSignedAttributes => "ExportSignedAttributes"
  | importSignature => "ImportSignature"
  | exportPublicKey => "ExportPublicKey"
  | exportCertificate => "ExportCertificate"
  | exportSignature => "ExportSignature"
  | removeSignature => "RemoveSignature"
  | listSignatures => "ListSignatures"
  | printDigest omitted =>
    "PrintDigest \x7b omit_vendor_cert: " ++ (if omitted then "true" else "false") ++ " \x7d"
  | generateAndExportSignature => "GenerateAndExportSignature"
  | generateAndEmbedSignature => "GenerateAndEmbedSignature"

end Workflow

/-- What a standalone file holds. -/
inductive Artifact
  | rawSignature
  | signedAttributes
  | signature
  | publicKey
  | certificate
  deriving DecidableEq, Repr

def Artifact.description : Artifact → String
  | rawSignature => "raw signature"
  | signedAttributes => "signed attributes"
  | signature => "signature"
  | publicKey => "pubkey"
  | certificate => "certificate"

end Authenticode
