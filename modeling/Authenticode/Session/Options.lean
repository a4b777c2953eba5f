import Authenticode.Configuration

/-!
# Options of a run

Everything a caller can ask of a run beside the actions themselves.
-/
namespace Authenticode

structure Options where
  /-- The image to read. -/
  input : Option String := none
  /-- The image to write. -/
  output : Option String := none
  certificateName : Option String := none
  certificateDirectory : String := Configuration.standardDirectory
  /-- The index of a signature; each workflow has its own default. -/
  signatureNumber : Option Int := none
  /-- Whether existing files are overwritten. -/
  force : Bool := false
  /-- Whether exported files are armored. -/
  armored : Bool := false
  /-- Whether printed digests cover the alignment of a certificate table. -/
  padding : Bool := false
  digest : HashAlgorithm := .sha256
  rawSignature : Option String := none
  attributesInput : Option String := none
  attributesOutput : Option String := none
  signatureInput : Option String := none
  signatureOutput : Option String := none
  publicKeyOutput : Option String := none
  certificateOutput : Option String := none
  deriving DecidableEq, Repr

namespace Options

def inputPath? (o : Options) : Artifact → Option String
  | .rawSignature => o.rawSignature
  | .signedAttributes => o.attributesInput
  | .signature => o.signatureInput
  | .publicKey => o.publicKeyOutput
  | .certificate => o.certificateOutput

def outputPath? (o : Options) : Artifact → Option String
  | .rawSignature => o.rawSignature
  | .signedAttributes => o.attributesOutput
  | .signature => o.signatureOutput
  | .publicKey => o.publicKeyOutput
  | .certificate => o.certificateOutput

/-- Every path that a run may follow. -/
def paths (o : Options) : List String :=
  o.certificateDirectory :: [o.input, o.output, o.rawSignature, o.attributesInput,
    o.attributesOutput, o.signatureInput, o.signatureOutput, o.publicKeyOutput,
    o.certificateOutput].filterMap id

end Options

end Authenticode
