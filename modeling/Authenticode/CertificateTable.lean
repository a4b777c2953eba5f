import Authenticode.Cms.Signature

/-!
# Certificate tables

The certificate table of an image holds its signatures one after the other. Each
stands in an entry with a header of eight octets, filled with zeros to a multiple
of eight; the length in the header counts the filling.
-/
namespace Authenticode.CertificateTable

open Cms (Signature)

def headerSize : Nat := 8

def revision : Nat := 0x0200

/-- An older revision that is read as well. -/
def oldRevision : Nat := 0x0100

def signatureType : Nat := 0x0002

def entrySize (length : Nat) : Nat := align8 (headerSize + length)

def size (signatures : List Signature) : Nat :=
  signatures.foldr (fun s n => entrySize s.length + n) 0

/-- Octets of a table to which one signature is added. -/
def sizeWith (signatures : List Signature) (extra : Signature) : Nat :=
  size signatures + entrySize extra.length

/-- The entry of one signature, if its length fits the header. -/
def encodeEntry (s : Signature) : Except Error Bytes :=
  let n := entrySize s.length
  if n < 0x100000000 then
    .ok (Bytes.ofLe 4 n ++ Bytes.ofLe 2 revision ++ Bytes.ofLe 2 signatureType
      ++ s.der.resize (n - headerSize))
  else .error (.signature (.tooLarge s.length))

def encode (signatures : List Signature) : Except Error Bytes :=
  (signatures.mapM encodeEntry).map List.flatten

/-- Reads the entries from a table of which `position` octets were read before. Zeros may follow
the last entry. -/
def decodeFrom (position : Nat) (rest : Bytes) : Except Error (List Signature) :=
  if rest.all (· == 0) then .ok []
  else
    match rest.slice? 0 headerSize with
    | none => .error (.signature (.truncatedEntry position))
    | some header =>
      let length := Bytes.leNat (header.take 4)
      let entryRevision := Bytes.leNat ((header.drop 4).take 2)
      let type := Bytes.leNat (header.drop 6)
      if _h : length < headerSize ∨ rest.length < length then
        .error (.signature (.entryLength length position))
      else if entryRevision ≠ revision ∧ entryRevision ≠ oldRevision then
        .error (.signature (.entryRevision entryRevision))
      else if type ≠ signatureType then .error (.signature (.entryType type))
      else do
        let s ← Signature.ofDer ((rest.take length).drop headerSize)
        let step := min (align8 length) rest.length
        let others ← decodeFrom (position + step) (rest.drop step)
        return s :: others
termination_by rest.length
decreasing_by
  have : 8 ≤ length := Nat.le_of_not_lt fun h => _h (.inl h)
  have : length ≤ rest.length := Nat.le_of_not_lt fun h => _h (.inr h)
  simp only [List.length_drop, align8]
  omega

def decode (table : Bytes) : Except Error (List Signature) := decodeFrom 0 table

end Authenticode.CertificateTable
