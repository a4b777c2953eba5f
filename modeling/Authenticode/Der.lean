import Authenticode.Error

/-!
# Distinguished encoding: elements and their concatenations

An element is a tag octet, a length and contents. The writer uses the shortest
length form; the reader takes any definite length of up to four octets, and only
tags of one octet. `elements` splits a byte string into consecutive elements and
stops at the first octets that are none.
-/
namespace Authenticode.Der

abbrev tagInteger : UInt8 := 0x02
abbrev tagBitString : UInt8 := 0x03
abbrev tagOctetString : UInt8 := 0x04
abbrev tagOid : UInt8 := 0x06
abbrev tagSequence : UInt8 := 0x30
abbrev tagSet : UInt8 := 0x31

/-- The constructed context tag 0: an explicit wrapper, or the implicit tag of signed attributes. -/
abbrev tagContext0 : UInt8 := 0xa0

def null : Bytes := [0x05, 0x00]

/-- The most digits that the first octet of the long form can announce. -/
def maxDigits : Nat := 0x7e

/-- The length octets for contents of `n` octets, in the shortest form. -/
def encodeLength (n : Nat) : Bytes :=
  if n < 0x80 then [n.toUInt8]
  else
    let digits := Bytes.magnitude n
    (0x80 ||| (min digits.length maxDigits).toUInt8) :: digits

def encode (tag : UInt8) (contents : Bytes) : Bytes :=
  tag :: encodeLength contents.length ++ contents

def encodeParts (tag : UInt8) (parts : List Bytes) : Bytes := encode tag parts.flatten

def encodeOid (octets : Bytes) : Bytes := encode tagOid octets

structure Element where
  tag : UInt8
  /-- The whole encoding, with tag and length. -/
  raw : Bytes
  contents : Bytes
  deriving DecidableEq, Repr

def refuse {α : Type} (f : DerFault) : Except Error α := .error (.signature (.der f))

/-- The length and the octets behind the length field, with the number of octets it takes. -/
def readLength : Bytes → Except Error (Nat × Nat)
  | [] => refuse .missingLength
  | first :: rest =>
    if first < 0x80 then .ok (first.toNat, 1)
    else if first = 0x80 then refuse .indefiniteLength
    else
      let count := first.toNat - 0x80
      if 4 < count then refuse .lengthTooLarge
      else if rest.length < count then refuse .truncatedLength
      else .ok (Bytes.beNat (rest.take count), count + 1)

/-- Reads the element at the start of `data`; octets behind it are not looked at. -/
def read : (data : Bytes) → Except Error Element
  | [] => refuse .emptyInput
  | tag :: rest =>
    if tag &&& 0x1f = 0x1f then refuse .highTag
    else do
      let (length, octets) ← readLength rest
      let header := 1 + octets
      if rest.length + 1 < header + length then refuse .overrun
      else
        let raw := (tag :: rest).take (header + length)
        .ok ⟨tag, raw, raw.drop header⟩

theorem raw_ne_nil_of_read {data : Bytes} {e : Element} (h : read data = .ok e) : e.raw ≠ [] := by
  cases data with
  | nil => cases h
  | cons tag rest =>
    simp only [read] at h
    split at h
    · cases h
    · cases hl : readLength rest with
      | error f => rw [hl] at h; cases h
      | ok p =>
        rw [hl] at h
        simp only [bind, Except.bind] at h
        split at h
        · cases h
        · cases h
          simp only [ne_eq, List.take_eq_nil_iff, reduceCtorEq, or_false]
          omega

/-- The consecutive elements of `data`; a failure to read one is the last item. -/
def elements : (data : Bytes) → List (Except Error Element)
  | [] => []
  | d :: ds =>
    match _h : read (d :: ds) with
    | .error f => [.error f]
    | .ok e => .ok e :: elements ((d :: ds).drop e.raw.length)
termination_by data => data.length
decreasing_by
  have := List.length_pos_iff.2 (raw_ne_nil_of_read _h)
  simp only [List.length_drop, List.length_cons]
  omega

/-- Item `i` of the elements of `data`, if there are so many items. -/
def item? (data : Bytes) (i : Nat) : Except Error (Option Element) :=
  match (elements data)[i]? with
  | none => .ok none
  | some (.ok e) => .ok (some e)
  | some (.error f) => .error f

def allElements (data : Bytes) : Except Error (List Element) := (elements data).mapM id

end Authenticode.Der
