import Authenticode.Digest
import Authenticode.Pe.Image

/-!
# What a digest covers

The digest of an image is the hash of a stream of its octets: the headers without
the checksum and without the directory entry of the certificate table, the raw
data of every section in file order, what follows the last section up to the
table, and what stands behind the table. The stream is a definition of its own,
so that what it covers can be told apart from the hash.
-/
namespace Authenticode.Pe

/-- What a digest covers beyond the fixed parts. -/
structure DigestOptions where
  /-- Whether zeros up to the alignment of a certificate table are covered as well. -/
  padding : Bool
  /-- Whether the section of vendor certificates is left out. -/
  omitVendorCertificate : Bool
  deriving DecidableEq, Repr

/-- The options under which a digest is signed. -/
def DigestOptions.signing : DigestOptions := ⟨true, false⟩

def vendorSection : String := ".vendor_cert"

namespace Image

/-- The octets at `start ≤ i < stop`; a range that does not exist aborts the run. -/
def range (data : Bytes) (start stop : Nat) : Except Error Bytes :=
  match data.slice? start stop with
  | some b => .ok b
  | none => .error .aborted

def headerCoverage (i : Image) : Except Error Bytes := do
  let l := i.layout
  let first ← range i.bytes 0 l.checksumOffset
  let second ← range i.bytes (l.checksumOffset + Checksum.fieldLength) l.directoryOffset
  let third ← range i.bytes (l.directoryOffset + directoryEntrySize) l.sizeOfHeaders
  return first ++ second ++ third

/-- The covered raw data of sections given in file order, and the offset behind all of them; a
section that is left out still moves that offset. -/
def sectionCoverage (data : Bytes) (omitted : Section → Bool) :
    List Section → (reached : Nat) → Except Error (Bytes × Nat)
  | [], reached => .ok ([], reached)
  | s :: rest, reached => do
    let some raw := data.slice? s.offset s.stop | throw (.image (.sectionOutside s.name))
    let (others, stop) ← sectionCoverage data omitted rest (max reached s.stop)
    return ((if omitted s then [] else raw) ++ others, stop)

/-- The octets fed to the hash. -/
def coverage (i : Image) (o : DigestOptions) : Except Error Bytes := do
  let omitted (s : Section) : Bool := o.omitVendorCertificate && s.name == vendorSection
  let headers ← i.headerCoverage
  let (sections, reached) ←
    sectionCoverage i.bytes omitted i.layout.sectionsByOffset i.layout.sizeOfHeaders
  let dir ← i.directory
  let dataEnd := if dir.isEmpty then i.length else dir.offset
  let trailing ← if reached < dataEnd then range i.bytes reached dataEnd else pure []
  let behind := if dir.isEmpty then [] else i.bytes.drop dir.stop
  let padding := if o.padding then Bytes.zeros (align8 dataEnd - dataEnd) else []
  return headers ++ sections ++ trailing ++ behind ++ padding

def digest (i : Image) (a : HashAlgorithm) (o : DigestOptions) : Except Error Digest :=
  (i.coverage o).map (Digest.compute a)

end Image

end Authenticode.Pe
