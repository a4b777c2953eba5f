import Authenticode.Der.Value
import Authenticode.Proofs.Der

/-!
# Integers in two's complement

An INTEGER holds a number in two's complement, in as few octets as possible. A certificate gives
its serial number as an absolute value instead, and octets are made of it again that stand for
a number that is not negative. Numbers below zero so become their opposites; all others come
back octet by octet, since only one string of octets is the shortest for a number.
-/
namespace Authenticode

namespace Bytes

variable {b : Bytes} {d : UInt8} {n : Nat}

theorem beNat_zero_cons (ds : Bytes) : beNat (0 :: ds) = beNat ds := by simp [beNat_cons]

/-- Octets and their complements add up to ones in all places. -/
theorem beNat_complement (b : Bytes) :
    beNat (b.map (0xff - ·)) + beNat b + 1 = 256 ^ b.length := by
  induction b with
  | nil => simp [beNat]
  | cons d ds ih =>
    have hd := d.toNat_lt
    have hcomplement : (0xff - d).toNat = 255 - d.toNat :=
      UInt8.toNat_sub_of_le _ _ (UInt8.le_iff_toNat_le.2 (Nat.le_of_lt_succ hd))
    have hplace : (255 - d.toNat) * 256 ^ ds.length + d.toNat * 256 ^ ds.length
        = 255 * 256 ^ ds.length := by
      rw [← Nat.add_mul, Nat.sub_add_cancel (Nat.le_of_lt_succ hd)]
    rw [List.map_cons, beNat_cons, beNat_cons, hcomplement, List.length_map, List.length_cons,
      Nat.pow_succ]
    omega

theorem magnitude_eq_nil_iff : magnitude n = [] ↔ n = 0 := by
  constructor
  · intro h
    by_contra hn
    rw [magnitude_of_pos (Nat.pos_of_ne_zero hn)] at h
    simp at h
  · rintro rfl
    exact magnitude_zero

theorem magnitude_append (h : 0 < 256 * n + d.toNat) :
    magnitude (256 * n + d.toNat) = magnitude n ++ [d] := by
  have hd := d.toNat_lt
  have hupper : (256 * n + d.toNat) / 256 = n := by omega
  have hlower : (256 * n + d.toNat).toUInt8 = d := by
    apply UInt8.toNat_inj.1
    rw [Nat.toUInt8, UInt8.toNat_ofNat']
    omega
  rw [magnitude_of_pos h, hupper, hlower]

theorem stripZeros_eq_magnitude (b : Bytes) : b.stripZeros = magnitude (beNat b) := by
  induction b using List.reverseRecOn with
  | nil => exact magnitude_zero.symm
  | append_singleton b d ih =>
    have hnat : beNat (b ++ [d]) = 256 * beNat b + d.toNat := by simp [beNat]
    unfold stripZeros at ih ⊢
    rw [List.dropWhile_append, ih, hnat]
    by_cases hb : beNat b = 0
    · rw [magnitude_eq_nil_iff.2 hb, List.isEmpty_nil, if_pos rfl]
      by_cases hd : d = 0
      · simp [hb, hd, magnitude_zero]
      · have hpos : 0 < 256 * beNat b + d.toNat := by
          have := mt UInt8.toNat_inj.1 hd
          simp at this
          omega
        rw [magnitude_append hpos, magnitude_eq_nil_iff.2 hb]
        simp [hd]
    · have hnil := mt magnitude_eq_nil_iff.1 hb
      rw [if_neg (by simpa using hnil), magnitude_append (by omega)]

end Bytes

namespace Der

variable {b : Bytes} {n : Nat}

/-- The number that octets stand for in two's complement. -/
def integerValue (b : Bytes) : Int :=
  match b with
  | [] => 0
  | d :: _ => if d < 0x80 then Bytes.beNat b else Bytes.beNat b - 256 ^ b.length

/-- The content octets of the INTEGER of a number that is not negative. -/
def naturalContents (n : Nat) : Bytes :=
  match Bytes.magnitude n with
  | d :: ds => if d < 0x80 then d :: ds else 0 :: d :: ds
  | [] => [0]

theorem encodeNat_eq (n : Nat) : encodeNat n = encode tagInteger (naturalContents n) := by
  unfold encodeNat naturalContents
  cases Bytes.magnitude n with
  | nil => rfl
  | cons d ds => rfl

section

variable {d : UInt8}

theorem integerValue_of_low (hd : d < 0x80) (ds : Bytes) :
    integerValue (d :: ds) = Bytes.beNat (d :: ds) := by
  rw [integerValue, if_pos hd]

/-- Under a set top bit the complements of the octets count down from minus one. -/
theorem integerValue_of_high (hd : ¬d < 0x80) (ds : Bytes) :
    integerValue (d :: ds) = -((Bytes.beNat ((d :: ds).map (0xff - ·)) + 1 : Nat) : Int) := by
  have hall := congrArg ((↑) : Nat → Int) (Bytes.beNat_complement (d :: ds))
  push_cast at hall ⊢
  rw [integerValue, if_neg hd, ← hall]
  ring

theorem low_of_integerValue {ds : Bytes} (h : 0 ≤ integerValue (d :: ds)) : d < 0x80 := by
  by_contra hd
  rw [integerValue_of_high hd] at h
  omega

end

theorem integerValue_naturalContents (n : Nat) : integerValue (naturalContents n) = n := by
  have hn := Bytes.beNat_magnitude n
  unfold naturalContents
  cases hdigits : Bytes.magnitude n with
  | nil =>
    rw [Bytes.magnitude_eq_nil_iff.1 hdigits]
    rfl
  | cons d ds =>
    rw [hdigits] at hn
    dsimp only
    split
    · next hd => rw [integerValue_of_low hd, hn]
    · rw [integerValue_of_low (by decide), Bytes.beNat_zero_cons, hn]

theorem naturalContents_beNat (hb : isMinimalInteger b = true) (h : 0 ≤ integerValue b) :
    naturalContents (Bytes.beNat b) = b := by
  unfold naturalContents
  rw [← Bytes.stripZeros_eq_magnitude]
  cases b with
  | nil => cases hb
  | cons d ds =>
    have hd := low_of_integerValue h
    by_cases hzero : d = 0
    · subst hzero
      cases ds with
      | nil => rfl
      | cons c rest =>
        have hc : ¬c < 0x80 := by simpa [isMinimalInteger] using hb
        have hne : c ≠ 0 := by
          rintro rfl
          exact hc (by decide)
        simp [Bytes.stripZeros, hne, hc]
    · simp [Bytes.stripZeros, hzero, hd]

/-- The absolute value of a number is written with its own octets unless it is negative. -/
theorem naturalContents_natAbs_iff (hb : isMinimalInteger b = true) :
    naturalContents (integerValue b).natAbs = b ↔ 0 ≤ integerValue b := by
  constructor
  · intro heq
    rw [← heq, integerValue_naturalContents]
    exact Int.natCast_nonneg _
  · intro h
    cases b with
    | nil => cases hb
    | cons d ds =>
      have hvalue := integerValue_of_low (low_of_integerValue h) ds
      have hnat : (integerValue (d :: ds)).natAbs = Bytes.beNat (d :: ds) := by
        rw [hvalue, Int.natAbs_natCast]
      rw [hnat]
      exact naturalContents_beNat hb h

end Der

end Authenticode
