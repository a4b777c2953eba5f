import Authenticode.Pe.Header

/-!
# Image layout

The offsets that the digest and the certificate table need. They are read once,
when an image is parsed, and checked against its size then.
-/
namespace Authenticode.Pe

/-- Where the parts of an image stand. -/
structure Layout where
  /-- Offset of the stored checksum. -/
  checksumOffset : Nat
  /-- Offset of the directory entry of the certificate table. -/
  directoryOffset : Nat
  sizeOfHeaders : Nat
  sections : List Section
  deriving DecidableEq, Repr

def directoryEntrySize : Nat := 8

def certificateDirectoryIndex : Nat := 4

/-- Offset of the checksum in the optional header. -/
def checksumGap : Nat := 64

namespace Layout

/-- Reads the layout of a file and checks it against the file's length. -/
def parse (data : Bytes) : Except Error Layout := do
  let some header := Header.read? data | throw (.image .unreadableHeader)
  let some optional := header.optional | throw (.image .noOptionalHeader)
  if optional.directoryCount ≤ certificateDirectoryIndex then
    throw (.image .noCertificateDirectory)
  let optionalOffset := header.peOffset + optionalHeaderGap
  let directoryOffset := optionalOffset + OptionalHeader.fixedSize optional.wide
    + certificateDirectoryIndex * directoryEntrySize
  let size := optional.sizeOfHeaders
  if data.length < size ∨ size < directoryOffset + directoryEntrySize then
    throw (.image (.inconsistentHeaderSize size))
  let some sections := header.sections? data | throw (.image .unreadableHeader)
  return ⟨optionalOffset + checksumGap, directoryOffset, size, sections⟩

/-- The sections that have raw data, in the order of their file offsets; sections at one offset
keep their order in the section table. -/
def sectionsByOffset (l : Layout) : List Section :=
  (l.sections.filter fun s => 0 < s.size).mergeSort fun s t => s.offset ≤ t.offset

end Layout

end Authenticode.Pe
