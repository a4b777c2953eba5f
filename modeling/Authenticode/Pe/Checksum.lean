import Authenticode.Error

/-!
# The image checksum

The header of an image stores a sum of its 16-bit words, taken with the carry
folded back in after every addition, plus the file length. The words that start
inside the stored field itself are left out.
-/
namespace Authenticode.Pe.Checksum

def fieldLength : Nat := 4

/-- The carry of a sum folded into its lower 16 bits. -/
def fold (sum : Nat) : Nat := sum % 65536 + sum / 65536

/-- The little-endian 16-bit words of `data`; a last odd octet is a word with a zero upper half. -/
def words : Bytes → List Nat
  | [] => []
  | [lo] => [lo.toNat]
  | lo :: hi :: rest => (lo.toNat + 256 * hi.toNat) :: words rest

/-- Adds the words in turn, skipping those that start at an offset inside the field. -/
def total (fieldOffset : Nat) : (position sum : Nat) → List Nat → Nat
  | _, sum, [] => sum
  | position, sum, w :: ws =>
    let inField := fieldOffset ≤ position ∧ position < fieldOffset + fieldLength
    total fieldOffset (position + 2) (if inField then sum else fold (sum + w)) ws

/-- The checksum of `data`, whose stored field is at `fieldOffset`. -/
def compute (data : Bytes) (fieldOffset : Nat) : Nat :=
  (fold (total fieldOffset 0 0 (words data)) + data.length) % 0x100000000

def update (data : Bytes) (fieldOffset : Nat) : Except Error Bytes :=
  if fieldOffset + fieldLength ≤ data.length then
    .ok (data.overwrite fieldOffset (Bytes.ofLe fieldLength (compute data fieldOffset)))
  else .error (.image .checksumOutside)

end Authenticode.Pe.Checksum
