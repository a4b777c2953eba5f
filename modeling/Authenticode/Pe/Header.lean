import Authenticode.Armor.Base64
import Authenticode.Error

/-!
# Image headers

An image opens with a DOS header that points at the PE signature; behind it come
the file header, the optional header and one header for each section. Reading
them either gives the few fields that signing needs, or fails as a whole.
-/
namespace Authenticode.Pe

/-- The fields of the optional header that signing needs. -/
structure OptionalHeader where
  /-- Whether the image is PE32+, with a wider fixed part. -/
  wide : Bool
  sizeOfHeaders : Nat
  directoryCount : Nat
  deriving DecidableEq, Repr

/-- The file header's fields, and where it was found. -/
structure Header where
  /-- Offset of the PE signature. -/
  peOffset : Nat
  sectionCount : Nat
  symbolTable : Nat
  symbolCount : Nat
  optionalSize : Nat
  optional : Option OptionalHeader
  deriving DecidableEq, Repr

/-- A section header, reduced to its name and its place in the file. -/
structure Section where
  name : String
  offset : Nat
  size : Nat
  deriving DecidableEq, Repr

def Section.stop (s : Section) : Nat := s.offset + s.size

def optionalHeaderGap : Nat := 24

def OptionalHeader.fixedSize (wide : Bool) : Nat := if wide then 112 else 96

def sectionHeaderSize : Nat := 40

/-- Octets in one record of the symbol table, behind which the long names are kept. -/
def symbolSize : Nat := 18

/-- The offset behind the section headers' start: where the optional header ends. -/
def Header.sectionsOffset (h : Header) : Nat := h.peOffset + optionalHeaderGap + h.optionalSize

def OptionalHeader.read? (data : Bytes) (offset : Nat) : Option OptionalHeader := do
  let magic ← data.u16? offset
  guard (magic = 0x10b ∨ magic = 0x20b)
  let wide := magic = 0x20b
  let fixed := OptionalHeader.fixedSize wide
  let sizeOfHeaders ← data.u32? (offset + 60)
  let directoryCount ← data.u32? (offset + fixed - 4)
  guard (directoryCount ≤ 16)
  guard (offset + fixed + 8 * directoryCount ≤ data.length)
  some ⟨wide, sizeOfHeaders, directoryCount⟩

/-- The headers of an image up to the optional header. -/
def Header.read? (data : Bytes) : Option Header := do
  let mark ← data.u16? 0
  guard (mark = 0x5a4d)
  let pe ← data.u32? 0x3c
  let signature ← data.u32? pe
  guard (signature = 0x4550)
  guard (0x80 ≤ data.length ∧ pe + optionalHeaderGap ≤ data.length)
  let sectionCount ← data.u16? (pe + 6)
  let symbolTable ← data.u32? (pe + 12)
  let symbolCount ← data.u32? (pe + 16)
  let optionalSize ← data.u16? (pe + 20)
  if optionalSize = 0 then
    some ⟨pe, sectionCount, symbolTable, symbolCount, 0, none⟩
  else
    let optional ← OptionalHeader.read? data (pe + optionalHeaderGap)
    some ⟨pe, sectionCount, symbolTable, symbolCount, optionalSize, some optional⟩

def upToNul (b : Bytes) : Bytes := b.takeWhile (· != 0)

/-- A number of decimal digits, possibly behind a plus sign. -/
def decimal? (s : List Char) : Option Nat :=
  let digits := match s with | '+' :: r => r | _ => s
  if digits ≠ [] ∧ digits.all Char.isDigit then
    some (digits.foldl (fun n c => 10 * n + (c.toNat - '0'.toNat)) 0)
  else none

/-- A number of base64 digits, most significant first; no digit is zero. -/
def base64Number? (s : List Char) : Option Nat :=
  s.foldlM (fun n c => (Base64.value? c).map (64 * n + ·)) 0

/-- Where a name field refers into the string table: `none` for a field that is the name itself,
and failure for a reference that is no number. -/
def nameReference? (field : Bytes) : Option (Option Nat) :=
  match field with
  | 0x2f :: 0x2f :: digits => do
    let text ← (upToNul digits).toText?
    let n ← base64Number? text.toList
    some (some n)
  | 0x2f :: digits => do
    let text ← (upToNul digits).toText?
    let n ← decimal? text.toList
    some (some n)
  | _ => some none

/-- The section header at `offset`, with its name resolved through the string table. -/
def Section.read? (data : Bytes) (strings offset : Nat) : Option Section := do
  let header ← data.slice? offset (offset + sectionHeaderSize)
  let field := header.take 8
  let size ← header.u32? 16
  let pointer ← header.u32? 20
  let name ← match ← nameReference? field with
    | none => (upToNul field).toText?
    | some n =>
      if strings + n ≤ data.length then (upToNul (data.drop (strings + n))).toText? else none
  some ⟨name, pointer, size⟩

def Header.sections? (h : Header) (data : Bytes) : Option (List Section) := do
  guard (h.sectionCount ≤ data.length / sectionHeaderSize)
  let strings := h.symbolTable + symbolSize * h.symbolCount
  (List.range h.sectionCount).mapM fun i =>
    Section.read? data strings (h.sectionsOffset + sectionHeaderSize * i)

end Authenticode.Pe
