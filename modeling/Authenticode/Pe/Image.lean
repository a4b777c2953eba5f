import Authenticode.Error
import Authenticode.Pe.Checksum
import Authenticode.Pe.Layout

/-!
# Images and their certificate tables

An image is its octets together with the layout found when it was parsed. The
layout is not read again, whatever is done to the octets later. Editing works on
the image in place: an edit that fails keeps what it had done before the failure,
and an access outside the octets aborts the run.
-/
namespace Authenticode.Pe

/-- The directory entry of the certificate table; the offset counts from the start of the file. -/
structure CertificateDirectory where
  offset : Nat
  size : Nat
  deriving DecidableEq, Repr

namespace CertificateDirectory

def none : CertificateDirectory := ⟨0, 0⟩

/-- Whether there is no table: either field may say so. -/
def isEmpty (d : CertificateDirectory) : Bool := d.offset = 0 || d.size = 0

def stop (d : CertificateDirectory) : Nat := d.offset + d.size

/-- The octets that an empty table does not have. -/
def reserved (d : CertificateDirectory) : Nat := if d.isEmpty then 0 else d.size

def toBytes (d : CertificateDirectory) : Bytes := Bytes.ofLe 4 d.offset ++ Bytes.ofLe 4 d.size

end CertificateDirectory

structure Image where
  bytes : Bytes
  layout : Layout
  deriving DecidableEq, Repr

namespace Image

def length (i : Image) : Nat := i.bytes.length

def number (data : Bytes) (offset : Nat) : Except Error Nat :=
  match data.u32? offset with
  | some n => .ok n
  | none => .error (.image (.truncated offset))

/-- The directory entry of the certificate table, as the octets have it now. -/
def directory (i : Image) : Except Error CertificateDirectory := do
  let offset ← number i.bytes i.layout.directoryOffset
  let size ← number i.bytes (i.layout.directoryOffset + 4)
  return ⟨offset, size⟩

/-- Takes a file as an image if its headers can be read and its certificate table lies inside. -/
def parse (data : Bytes) : Except Error Image := do
  let image : Image := ⟨data, ← Layout.parse data⟩
  let dir ← image.directory
  if !dir.isEmpty && data.length < dir.stop then
    throw (.image (.tableOutside dir.offset dir.size))
  return image

def table (i : Image) : Except Error (Option Bytes) := do
  let dir ← i.directory
  if dir.isEmpty then return none
  match i.bytes.slice? dir.offset dir.stop with
  | some t => return some t
  | none => throw (.image .tableUnavailable)

def reserved (i : Image) : Except Error Nat := i.directory.map CertificateDirectory.reserved

def storedChecksum (i : Image) : Except Error Nat := number i.bytes i.layout.checksumOffset

/-- An operation on an image that may fail half-way. -/
abbrev Edit := EStateM Error Image

def maxLength : Nat := 0x7fffffffffffffff

/-- Replaces the octets; the layout stays. -/
def setBytes (data : Bytes) : Edit Unit := modify fun i => { i with bytes := data }

def currentDirectory : Edit CertificateDirectory := do ofExcept (← get).directory

def setDirectory (d : CertificateDirectory) : Edit Unit := do
  let i ← get
  if i.length < i.layout.directoryOffset + directoryEntrySize then throw .aborted
  setBytes (i.bytes.overwrite i.layout.directoryOffset d.toBytes)

/-- Stores the checksum of the image in its header. -/
def updateChecksum : Edit Unit := do
  let i ← get
  setBytes (← ofExcept (Checksum.update i.bytes i.layout.checksumOffset))

/-- An offset or size that the 32-bit fields of the header can hold. -/
def narrow (n : Nat) : Except Error Nat :=
  if n < 0x100000000 then .ok n else .error (.image (.offsetTooLarge n))

/-- Drops the certificate table, so that the image reads as unsigned. The table's octets are cut
off where they end the file; otherwise they stay, and the result says so. -/
def clearTable : Edit (Option Warning) := do
  let i ← get
  let dir ← currentDirectory
  if dir.isEmpty then return none
  setDirectory .none
  let cut := dir.stop = i.length
  if cut then modify fun i => { i with bytes := i.bytes.take dir.offset }
  updateChecksum
  return if cut then none else some (.tableNotAtEnd dir.offset dir.size i.length)

/-- The certificate table that ends the image. Where there is none yet, the image is filled up to
the alignment of a table, and the table is empty; the directory entry is not touched. -/
def tailDirectory : Edit CertificateDirectory := do
  let i ← get
  let dir ← currentDirectory
  if dir.isEmpty then
    let start := align8 i.length
    setBytes (i.bytes.resize start)
    return ⟨← ofExcept (narrow start), 0⟩
  if dir.stop ≠ i.length then throw (.image .tableNotAtEnd)
  return dir

/-- Extends the table that ends the image. Where the end is out of bounds the edit aborts: this stands
for a sum that overflows, with the checks for it built in, and for a vector of too many octets. -/
def growTable (amount : Nat) : Edit Unit := do
  if amount = 0 then return
  let dir ← tailDirectory
  let size := dir.size + amount
  if maxLength < dir.offset + size then throw .aborted
  setBytes ((← get).bytes.resize (dir.offset + size))
  setDirectory ⟨dir.offset, ← ofExcept (narrow size)⟩

/-- Writes `table` into the octets kept for it and fills the rest with zeros. -/
def writeTable (table : Bytes) : Edit Unit := do
  let i ← get
  let dir ← currentDirectory
  let reserved := dir.reserved
  if reserved < table.length then
    throw (.inconsistent (.listExceedsReservation table.length reserved))
  if reserved = 0 then return
  if i.length < dir.stop then throw .aborted
  setBytes (i.bytes.overwrite dir.offset (table.resize reserved))

/-- Makes `table` the whole certificate table; the size of the image follows. An empty table
removes the directory entry. -/
def replaceTable (table : Bytes) : Edit (Option Warning) := do
  let dir ← currentDirectory
  if table = [] then
    if dir.isEmpty then return none
    clearTable
  else
    let tail ← tailDirectory
    setBytes ((← get).bytes.take tail.offset ++ table)
    setDirectory ⟨tail.offset, ← ofExcept (narrow table.length)⟩
    return none

end Image

end Authenticode.Pe
