import Authenticode.Bytes
import Mathlib.Tactic

/-!
# Octets at positions

Byte strings are compared position by position here. `AgreeOff` says that two of
them differ at most at certain positions, which is what an edit of a few header
fields leaves of an image; slices and numbers read elsewhere are then the same.
The rest of the module reads numbers back from their digits.
-/
namespace Authenticode.Bytes

/-- Two byte strings of one length that differ at most at the positions of `p`. -/
def AgreeOff (p : Nat → Prop) (a b : Bytes) : Prop :=
  a.length = b.length ∧ ∀ i, ¬p i → a[i]? = b[i]?

/-- The `width` positions from `start` on. -/
def Within (start width i : Nat) : Prop := start ≤ i ∧ i < start + width

instance (start width i : Nat) : Decidable (Within start width i) :=
  inferInstanceAs (Decidable (_ ∧ _))

namespace AgreeOff

variable {p q : Nat → Prop} {a b c : Bytes}

theorem refl (p : Nat → Prop) (a : Bytes) : AgreeOff p a a := ⟨rfl, fun _ _ => rfl⟩

theorem symm (h : AgreeOff p a b) : AgreeOff p b a :=
  ⟨h.1.symm, fun i hi => (h.2 i hi).symm⟩

theorem trans (h : AgreeOff p a b) (h' : AgreeOff p b c) : AgreeOff p a c :=
  ⟨h.1.trans h'.1, fun i hi => (h.2 i hi).trans (h'.2 i hi)⟩

theorem mono (h : AgreeOff p a b) (hpq : ∀ i, p i → q i) : AgreeOff q a b :=
  ⟨h.1, fun i hi => h.2 i (mt (hpq i) hi)⟩

theorem take (h : AgreeOff p a b) (n : Nat) : AgreeOff p (a.take n) (b.take n) := by
  refine ⟨by simp [h.1], ?_⟩
  intro i hi
  simp only [List.getElem?_take]
  split
  · exact h.2 i hi
  · rfl

theorem append (h : AgreeOff p a b) (tail : Bytes) : AgreeOff p (a ++ tail) (b ++ tail) := by
  refine ⟨by simp [h.1], ?_⟩
  intro i hi
  simp only [List.getElem?_append, h.1, h.2 i hi]

theorem resize (h : AgreeOff p a b) (n : Nat) : AgreeOff p (a.resize n) (b.resize n) := by
  simpa only [Bytes.resize, h.1] using (h.take n).append _

end AgreeOff

theorem getElem?_overwrite {b new : Bytes} {pos : Nat} (h : pos + new.length ≤ b.length) (i : Nat) :
    (b.overwrite pos new)[i]? = if Within pos new.length i then new[i - pos]? else b[i]? := by
  have htake : (b.take pos).length = pos := by
    rw [List.length_take]
    omega
  rw [overwrite, List.append_assoc, List.getElem?_append, List.getElem?_append, htake,
    List.getElem?_drop, List.getElem?_take]
  by_cases hbefore : i < pos
  · have hout : ¬Within pos new.length i := fun hi => by have := hi.1; omega
    rw [if_pos hbefore, if_pos hbefore, if_neg hout]
  · rw [if_neg hbefore]
    by_cases hin : i - pos < new.length
    · rw [if_pos hin, if_pos ⟨by omega, by omega⟩]
    · have hout : ¬Within pos new.length i := fun hi => by have := hi.2; omega
      rw [if_neg hin, if_neg hout]
      congr 1
      omega

theorem agreeOff_overwrite {b new : Bytes} {pos : Nat} (h : pos + new.length ≤ b.length) :
    AgreeOff (Within pos new.length) (b.overwrite pos new) b :=
  ⟨length_overwrite h, fun i hi => by rw [getElem?_overwrite h, if_neg hi]⟩

theorem overwrite_append {b new : Bytes} {pos : Nat} (h : pos + new.length ≤ b.length)
    (tail : Bytes) : (b ++ tail).overwrite pos new = b.overwrite pos new ++ tail := by
  simp only [overwrite, List.append_assoc]
  rw [List.take_append_of_le_length (by omega), List.drop_append_of_le_length h]

theorem AgreeOff.overwrite {p : Nat → Prop} {a b new : Bytes} {pos : Nat}
    (h : pos + new.length ≤ b.length)
    (hab : AgreeOff (fun k => p k ∨ Within pos new.length k) a b) :
    AgreeOff p (a.overwrite pos new) (b.overwrite pos new) := by
  have ha : pos + new.length ≤ a.length := hab.1 ▸ h
  refine ⟨?_, ?_⟩
  · rw [length_overwrite ha, length_overwrite h, hab.1]
  · intro k hk
    rw [getElem?_overwrite ha, getElem?_overwrite h]
    by_cases hin : Within pos new.length k
    · rw [if_pos hin, if_pos hin]
    · rw [if_neg hin, if_neg hin]
      exact hab.2 k (not_or.2 ⟨hk, hin⟩)

theorem slice?_of_le {b : Bytes} {i j : Nat} (hij : i ≤ j) (hj : j ≤ b.length) :
    b.slice? i j = some ((b.take j).drop i) := if_pos ⟨hij, hj⟩

theorem length_of_slice? {b s : Bytes} {i j : Nat} (h : b.slice? i j = some s) :
    s.length = j - i := by
  obtain ⟨⟨_, hj⟩, rfl⟩ := slice?_eq_some_iff.1 h
  simp only [List.length_drop, List.length_take]
  omega

theorem slice?_eq_some_iff_getElem? {b s : Bytes} {i : Nat} :
    b.slice? i (i + s.length) = some s ↔
      i + s.length ≤ b.length ∧ ∀ k < s.length, b[i + k]? = s[k]? := by
  rw [slice?_eq_some_iff]
  constructor
  · rintro ⟨⟨_, hlen⟩, hs⟩
    refine ⟨hlen, ?_⟩
    intro k hk
    have hget := congrArg (fun t : Bytes => t[k]?) hs
    simp only [List.getElem?_drop, List.getElem?_take] at hget
    rw [hget, if_pos (by omega)]
  · rintro ⟨hlen, hget⟩
    refine ⟨⟨by omega, hlen⟩, List.ext_getElem? ?_⟩
    intro k
    simp only [List.getElem?_drop, List.getElem?_take]
    split
    · exact (hget k (by omega)).symm
    · exact List.getElem?_eq_none (by omega)

theorem overwrite_slice? {b new : Bytes} {pos : Nat}
    (h : b.slice? pos (pos + new.length) = some new) : b.overwrite pos new = b := by
  obtain ⟨hlen, hget⟩ := slice?_eq_some_iff_getElem?.1 h
  apply List.ext_getElem?
  intro k
  rw [getElem?_overwrite hlen]
  split
  · next hk =>
    have hsum : pos + (k - pos) = k := by
      have := hk.1
      omega
    rw [← hget (k - pos) (by have := hk.2; omega), hsum]
  · rfl

theorem slice?_overwrite {b new : Bytes} {pos : Nat} (h : pos + new.length ≤ b.length) :
    (b.overwrite pos new).slice? pos (pos + new.length) = some new := by
  refine slice?_eq_some_iff_getElem?.2 ⟨(length_overwrite h).symm ▸ h, ?_⟩
  intro k hk
  rw [getElem?_overwrite h, if_pos ⟨by omega, by omega⟩, Nat.add_sub_cancel_left]

theorem slice?_eq_some_append_iff {b s t : Bytes} {i : Nat} :
    b.slice? i (i + s.length + t.length) = some (s ++ t) ↔
      b.slice? i (i + s.length) = some s ∧
        b.slice? (i + s.length) (i + s.length + t.length) = some t := by
  have hsum : i + s.length + t.length = i + (s ++ t).length := by
    rw [List.length_append]
    omega
  rw [hsum, slice?_eq_some_iff_getElem?, ← hsum, slice?_eq_some_iff_getElem?,
    slice?_eq_some_iff_getElem?, List.length_append]
  constructor
  · rintro ⟨hlen, hget⟩
    refine ⟨⟨by omega, ?_⟩, by omega, ?_⟩
    · intro k hk
      rw [hget k (by omega), List.getElem?_append_left hk]
    · intro k hk
      have := hget (s.length + k) (by omega)
      rwa [List.getElem?_append_right (by omega), ← Nat.add_assoc, Nat.add_sub_cancel_left] at this
  · rintro ⟨⟨_, hs⟩, hlen, ht⟩
    refine ⟨by omega, ?_⟩
    intro k hk
    by_cases hks : k < s.length
    · rw [hs k hks, List.getElem?_append_left hks]
    · have := ht (k - s.length) (by omega)
      rw [List.getElem?_append_right (by omega), ← this]
      congr 1
      omega

theorem take_drop_eq_iff {a b : Bytes} {i j : Nat} :
    (a.take j).drop i = (b.take j).drop i ↔ ∀ k, i ≤ k → k < j → a[k]? = b[k]? := by
  constructor
  · intro h k hi hj
    have hget := congrArg (fun t : Bytes => t[k - i]?) h
    simpa only [List.getElem?_drop, List.getElem?_take, Nat.add_sub_cancel' hi, if_pos hj]
      using hget
  · intro h
    apply List.ext_getElem?
    intro k
    simp only [List.getElem?_drop, List.getElem?_take]
    split
    · exact h _ (Nat.le_add_right i k) ‹_›
    · rfl

theorem drop_eq_iff {a b : Bytes} {i : Nat} :
    a.drop i = b.drop i ↔ ∀ k, i ≤ k → a[k]? = b[k]? := by
  constructor
  · intro h k hi
    have hget := congrArg (fun t : Bytes => t[k - i]?) h
    simpa only [List.getElem?_drop, Nat.add_sub_cancel' hi] using hget
  · intro h
    apply List.ext_getElem?
    intro k
    rw [List.getElem?_drop, List.getElem?_drop, h _ (Nat.le_add_right i k)]

theorem slice?_congr {a b : Bytes} {i j : Nat} (ha : j ≤ a.length) (hb : j ≤ b.length)
    (h : ∀ k, i ≤ k → k < j → a[k]? = b[k]?) : a.slice? i j = b.slice? i j := by
  by_cases hij : i ≤ j
  · rw [slice?_of_le hij ha, slice?_of_le hij hb, take_drop_eq_iff.2 h]
  · simp [slice?, hij]

theorem AgreeOff.take_drop_eq {p : Nat → Prop} {a b : Bytes} (h : AgreeOff p a b) {i j : Nat}
    (hp : ∀ k, i ≤ k → k < j → ¬p k) : (a.take j).drop i = (b.take j).drop i :=
  take_drop_eq_iff.2 fun k hi hk => h.2 k (hp k hi hk)

theorem AgreeOff.slice?_eq {p : Nat → Prop} {a b : Bytes} (h : AgreeOff p a b) {i j : Nat}
    (hp : ∀ k, i ≤ k → k < j → ¬p k) : a.slice? i j = b.slice? i j := by
  by_cases hj : j ≤ a.length
  · exact slice?_congr hj (h.1 ▸ hj) fun k hi hk => h.2 k (hp k hi hk)
  · have hj' : ¬j ≤ b.length := h.1 ▸ hj
    simp [slice?, hj, hj']

theorem slice?_append_left {a : Bytes} {i j : Nat} (hj : j ≤ a.length) (tail : Bytes) :
    (a ++ tail).slice? i j = a.slice? i j := by
  apply slice?_congr _ hj
  · intro k _ hk
    exact List.getElem?_append_left (by omega)
  · rw [List.length_append]
    omega

theorem slice?_append_right (a tail : Bytes) :
    (a ++ tail).slice? a.length (a.length + tail.length) = some tail := by
  rw [slice?_of_le (by omega) (by simp), List.take_of_length_le (by simp), List.drop_left]

theorem leNat_lt (b : Bytes) : leNat b < 256 ^ b.length := by
  induction b with
  | nil => simp [leNat]
  | cons d ds ih =>
    have hd := d.toNat_lt
    rw [leNat, List.length_cons, Nat.pow_succ]
    omega

theorem leNat_ofLe (w n : Nat) : leNat (ofLe w n) = n % 256 ^ w := by
  induction w generalizing n with
  | zero => simp [ofLe, leNat, Nat.mod_one]
  | succ w ih =>
    rw [ofLe, leNat, ih, Nat.pow_succ, Nat.mul_comm _ 256, Nat.mod_mul]
    simp

theorem ofLe_leNat (b : Bytes) : ofLe b.length (leNat b) = b := by
  induction b with
  | nil => rfl
  | cons d ds ih =>
    have hd := d.toNat_lt
    have hdigit : (d.toNat + 256 * leNat ds).toUInt8 = d := by
      apply UInt8.toNat_inj.1
      simp only [Nat.toUInt8_eq, UInt8.toNat_ofNat']
      omega
    have hrest : (d.toNat + 256 * leNat ds) / 256 = leNat ds := by omega
    rw [List.length_cons, leNat, ofLe, hdigit, hrest, ih]

theorem u32?_eq_some_iff {b : Bytes} {pos n : Nat} :
    b.u32? pos = some n ↔ n < 2 ^ 32 ∧ b.slice? pos (pos + 4) = some (ofLe 4 n) := by
  constructor
  · intro h
    obtain ⟨s, hs, rfl⟩ := Option.map_eq_some_iff.1 h
    have hlen : s.length = 4 := by
      rw [length_of_slice? hs]
      omega
    refine ⟨by simpa [hlen] using leNat_lt s, ?_⟩
    rw [hs, ← hlen, ofLe_leNat]
  · rintro ⟨hn, hs⟩
    rw [u32?, hs, Option.map_some, leNat_ofLe, Nat.mod_eq_of_lt (by omega)]

theorem u32?_isSome {b : Bytes} {pos : Nat} (h : pos + 4 ≤ b.length) : (b.u32? pos).isSome := by
  simp [u32?, slice?_of_le (Nat.le_add_right pos 4) h]

theorem le_align8 (n : Nat) : n ≤ align8 n := by
  unfold align8
  omega

theorem dvd_align8 (n : Nat) : 8 ∣ align8 n := Nat.dvd_mul_left 8 _

theorem align8_align8 (n : Nat) : align8 (align8 n) = align8 n := by
  unfold align8
  omega

theorem zeros_append (m n : Nat) : zeros m ++ zeros n = zeros (m + n) :=
  List.replicate_append_replicate

theorem getElem?_take_append {b c new : Bytes} {n p : Nat} (hp : p < b.length) (hn : p < n) :
    ((b ++ c).take n ++ new)[p]? = b[p]? := by
  have htake : p < ((b ++ c).take n).length := by
    rw [List.length_take, List.length_append]
    omega
  rw [List.getElem?_append_left htake, List.getElem?_take_of_lt hn, List.getElem?_append_left hp]

theorem resize_of_le {b : Bytes} {n : Nat} (h : b.length ≤ n) :
    b.resize n = b ++ zeros (n - b.length) := by
  rw [resize, List.take_of_length_le h]

theorem resize_self (b : Bytes) : b.resize b.length = b := by
  simp [resize, zeros]

/-- The octets with zeros up to where a certificate table may start behind them. -/
def aligned (b : Bytes) : Bytes := b.resize (align8 b.length)

@[simp] theorem length_aligned (b : Bytes) : b.aligned.length = align8 b.length :=
  length_resize _ _

theorem aligned_eq_append (b : Bytes) : b.aligned = b ++ zeros (align8 b.length - b.length) :=
  resize_of_le (le_align8 _)

theorem length_le_aligned (b : Bytes) : b.length ≤ b.aligned.length := by
  rw [length_aligned]
  exact le_align8 _

@[simp] theorem aligned_aligned (b : Bytes) : b.aligned.aligned = b.aligned := by
  rw [aligned, length_aligned, align8_align8, ← length_aligned, resize_self]

theorem AgreeOff.aligned {p : Nat → Prop} {a b : Bytes} (h : AgreeOff p a b) :
    AgreeOff p a.aligned b.aligned := by
  rw [Bytes.aligned, Bytes.aligned, h.1]
  exact h.resize _

theorem AgreeOff.eq_aligned {p : Nat → Prop} {a b : Bytes} (h : AgreeOff p a b.aligned)
    (hp : ∀ k, b.length ≤ k → ¬p k) : a = Bytes.aligned (a.take b.length) := by
  have htake : (a.take b.length).length = b.length := by
    rw [List.length_take, h.1]
    exact Nat.min_eq_left (length_le_aligned b)
  have hfilling : a.drop b.length = zeros (align8 b.length - b.length) := by
    apply List.ext_getElem?
    intro k
    rw [List.getElem?_drop, h.2 _ (hp _ (Nat.le_add_right _ _)), aligned_eq_append,
      List.getElem?_append_right (Nat.le_add_right _ _), Nat.add_sub_cancel_left]
  rw [aligned_eq_append, htake, ← hfilling, List.take_append_drop]

end Authenticode.Bytes
