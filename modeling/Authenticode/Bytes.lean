/-!
# Byte strings

Everything the library reads or writes is a list of octets. This module holds
the little operations shared by every format: bounded slices, overwriting in
place, zero extension, little- and big-endian numbers, hexadecimal text, and the
eight-byte alignment of the certificate table.
-/
namespace Authenticode

abbrev Bytes := List UInt8

/-- A text with its ASCII letters in lower case. -/
def lowerCase (s : String) : String := s.map Char.toLower

/-- The least multiple of eight that is at least `n`. -/
def align8 (n : Nat) : Nat := (n + 7) / 8 * 8

namespace Bytes

def ofText (s : String) : Bytes := s.toUTF8.data.toList

/-- The octets at positions `start ≤ i < stop`, when they all exist. -/
def slice? (b : Bytes) (start stop : Nat) : Option Bytes :=
  if start ≤ stop ∧ stop ≤ b.length then some ((b.take stop).drop start) else none

/-- `b` with the octets from `pos` on replaced by `new`; the length stays when `new` fits. -/
def overwrite (b : Bytes) (pos : Nat) (new : Bytes) : Bytes :=
  b.take pos ++ new ++ b.drop (pos + new.length)

def zeros (n : Nat) : Bytes := List.replicate n 0

/-- The first `n` octets, extended by zeros when there are fewer. -/
def resize (b : Bytes) (n : Nat) : Bytes := b.take n ++ zeros (n - b.length)

def leNat : Bytes → Nat
  | [] => 0
  | d :: ds => d.toNat + 256 * leNat ds

def beNat (b : Bytes) : Nat := b.foldl (fun acc d => 256 * acc + d.toNat) 0

def ofLe : (width : Nat) → (n : Nat) → Bytes
  | 0, _ => []
  | w + 1, n => n.toUInt8 :: ofLe w (n / 256)

def ofBe (width n : Nat) : Bytes := (ofLe width n).reverse

/-- The big-endian digits of `n` without a leading zero digit; zero has none. -/
def magnitude (n : Nat) : Bytes := go n []
where
  /-- Puts the digits of `n` in front of `acc`. -/
  go (n : Nat) (acc : Bytes) : Bytes :=
    if n = 0 then acc else go (n / 256) (n.toUInt8 :: acc)
  termination_by n
  decreasing_by omega

/-- The little-endian 16-bit number at offset `pos`, when it lies inside. -/
def u16? (b : Bytes) (pos : Nat) : Option Nat := (b.slice? pos (pos + 2)).map leNat

/-- The little-endian 32-bit number at offset `pos`, when it lies inside. -/
def u32? (b : Bytes) (pos : Nat) : Option Nat := (b.slice? pos (pos + 4)).map leNat

def stripZeros (b : Bytes) : Bytes := b.dropWhile (· == 0)

/-- The lower-case hexadecimal digit of the lowest four bits. -/
def hexDigit (n : Nat) : Char := Nat.digitChar (n % 16)

def toHex (b : Bytes) : String :=
  String.ofList (b.flatMap fun d => [hexDigit (d.toNat / 16), hexDigit d.toNat])

/-- The text these octets spell in UTF-8, unless they are not well formed. -/
def toText? (b : Bytes) : Option String := String.fromUTF8? ⟨b.toArray⟩

end Bytes

/-- `n` in lower-case hexadecimal, filled with zeros up to `width` digits. -/
def hexText (width n : Nat) : String :=
  let digits := Nat.toDigits 16 n
  String.ofList (List.replicate (width - digits.length) '0' ++ digits)

/-- `n` in hexadecimal behind the mark `0x`. -/
def hexMarked (width n : Nat) : String := "0x" ++ hexText width n

namespace Bytes

@[simp] theorem length_zeros (n : Nat) : (zeros n).length = n := List.length_replicate

@[simp] theorem length_ofLe (w n : Nat) : (ofLe w n).length = w := by
  induction w generalizing n with
  | zero => rfl
  | succ w ih => simp [ofLe, ih]

@[simp] theorem length_ofBe (w n : Nat) : (ofBe w n).length = w := by simp [ofBe]

theorem length_overwrite {b new : Bytes} {pos : Nat} (h : pos + new.length ≤ b.length) :
    (b.overwrite pos new).length = b.length := by
  simp only [overwrite, List.length_append, List.length_take, List.length_drop]
  omega

@[simp] theorem length_resize (b : Bytes) (n : Nat) : (b.resize n).length = n := by
  simp only [resize, List.length_append, List.length_take, length_zeros]
  omega

theorem slice?_eq_some_iff {b s : Bytes} {i j : Nat} :
    b.slice? i j = some s ↔ (i ≤ j ∧ j ≤ b.length) ∧ s = (b.take j).drop i := by
  unfold slice?
  split
  · next h => simp [h, eq_comm]
  · next h => exact ⟨nofun, fun h' => absurd h'.1 h⟩

end Bytes

end Authenticode
