import Authenticode.Proofs.Pe.Checksum

/-!
# Carries and the size of the sum

The words of an image are added with the carry folded in after every addition. The sum then
never takes more than 16 bits, so a number of 32 bits holds it together with the next word, and
what is left in the end is what the whole sum leaves when all its carries are folded in at once.
Where the field of the checksum starts with a word, this whole sum is that of the octets with
the field set to zero.
-/
namespace Authenticode.Pe.Checksum

open Bytes (AgreeOff Within)

variable {b : Bytes} {field m n position sum w : Nat} {ws : List Nat}

/-- The octets with those of the field set to zero. -/
def cleared (b : Bytes) (field : Nat) : Bytes :=
  b.mapIdx fun i d => if Within field fieldLength i then 0 else d

theorem getElem?_cleared (b : Bytes) (field i : Nat) :
    (cleared b field)[i]? = b[i]?.map fun d => if Within field fieldLength i then 0 else d :=
  List.getElem?_mapIdx

theorem agreeOff_cleared (b : Bytes) (field : Nat) :
    AgreeOff (Within field fieldLength) (cleared b field) b := by
  refine ⟨List.length_mapIdx, ?_⟩
  intro i hi
  simp [getElem?_cleared, hi]

theorem getD_cleared {i : Nat} (hi : Within field fieldLength i) :
    (cleared b field).getD i 0 = 0 := by
  rw [List.getD_eq_getElem?_getD, getElem?_cleared]
  cases b[i]? with
  | none => rfl
  | some d => simp [hi]

theorem wordSum_of_zero (hfield : Even field) (hposition : Even position)
    (hzero : ∀ i, Within field fieldLength (position + i) → b.getD i 0 = 0) :
    wordSum field position (words b) = (words b).sum := by
  fun_induction words b generalizing position with
  | case1 => rfl
  | case2 lo =>
    simp only [wordSum, List.sum_cons, List.sum_nil, Nat.add_zero]
    split
    · next hin =>
      have hlo : lo = 0 := hzero 0 hin
      rw [hlo, UInt8.toNat_zero]
    · rfl
  | case3 lo hi rest ih =>
    have hrest : wordSum field (position + 2) (words rest) = (words rest).sum := by
      apply ih (hposition.add even_two)
      intro i hi
      apply hzero (i + 2)
      rwa [Nat.add_comm i, ← Nat.add_assoc]
    rw [wordSum, hrest, List.sum_cons]
    split
    · next hin =>
      have hupper : Within field fieldLength (position + 1) := by
        obtain ⟨hle, hlt⟩ := hin
        rw [Nat.even_iff] at hfield hposition
        unfold fieldLength at hlt ⊢
        exact ⟨by omega, by omega⟩
      have hlo : lo = 0 := hzero 0 hin
      have hhi : hi = 0 := hzero 1 hupper
      simp [hlo, hhi]
    · rfl

theorem octetSum_eq_sum (b : Bytes) (hfield : Even field) :
    octetSum field b = (words (cleared b field)).sum := by
  have hzero : ∀ i, Within field fieldLength (0 + i) → (cleared b field).getD i 0 = 0 := by
    intro i hi
    rw [Nat.zero_add] at hi
    exact getD_cleared hi
  calc octetSum field b
      = octetSum field (cleared b field) :=
        (octetSum_congr (agreeOff_cleared b field) (Nat.even_iff.1 hfield)).symm
    _ = wordSum field 0 (words (cleared b field)) := by
        rw [wordSum_words _ rfl]
        simp only [Nat.zero_add, octetSum]
    _ = (words (cleared b field)).sum := wordSum_of_zero hfield Even.zero hzero

/-- The sum of two 32-bit numbers, unless it takes more than 32 bits. -/
def add? (a b : UInt32) : Option UInt32 :=
  if a.toNat + b.toNat < 2 ^ 32 then some (a + b) else none

def fold? (sum : UInt32) : Option UInt32 := add? (sum &&& 0xffff) (sum >>> 16)

/-- The words with their octets put together bit by bit. -/
def words32 : Bytes → List UInt32
  | [] => []
  | [lo] => [lo.toUInt32]
  | lo :: hi :: rest => (lo.toUInt32 ||| hi.toUInt32 <<< 8) :: words32 rest

/-- Adds the words in turn as `total` does, unless a sum takes more than 32 bits. -/
def total? (field : Nat) : (position : Nat) → (sum : UInt32) → List UInt32 → Option UInt32
  | _, sum, [] => some sum
  | position, sum, w :: ws => do
    let inField := field ≤ position ∧ position < field + fieldLength
    let next ← if inField then some sum else do fold? (← add? sum w)
    total? field (position + 2) next ws

/-- The checksum in 32 bits. Only the length is added without regard to a carry. -/
def compute? (b : Bytes) (field : Nat) : Option UInt32 := do
  let sum ← fold? (← total? field 0 0 (words32 b))
  return sum + b.length.toUInt32

theorem toNat_ofNat_of_lt (h : n < 2 ^ 32) : (UInt32.ofNat n).toNat = n :=
  UInt32.toNat_ofNat_of_lt' h

theorem add?_ofNat (h : m + n < 2 ^ 32) : add? (.ofNat m) (.ofNat n) = some (.ofNat (m + n)) := by
  have hm := toNat_ofNat_of_lt (n := m) (by omega)
  have hn := toNat_ofNat_of_lt (n := n) (by omega)
  rw [add?, hm, hn, if_pos h, UInt32.ofNat_add]

theorem fold?_ofNat (h : n < 2 ^ 32) : fold? (.ofNat n) = some (.ofNat (fold n)) := by
  have hlower : UInt32.ofNat n &&& 0xffff = .ofNat (n % 65536) := by
    apply UInt32.toNat_inj.1
    have hmask : (0xffff : UInt32).toNat = 2 ^ 16 - 1 := rfl
    rw [UInt32.toNat_and, toNat_ofNat_of_lt h, hmask, Nat.and_two_pow_sub_one_eq_mod,
      toNat_ofNat_of_lt (by omega)]
  have hupper : UInt32.ofNat n >>> 16 = .ofNat (n / 65536) := by
    apply UInt32.toNat_inj.1
    rw [UInt32.toNat_shiftRight, toNat_ofNat_of_lt h, toNat_ofNat_of_lt (by omega),
      Nat.shiftRight_eq_div_pow]
    rfl
  rw [fold?, hlower, hupper, add?_ofNat (by omega), fold]

theorem words32_eq (b : Bytes) : words32 b = (words b).map .ofNat := by
  fun_induction words b with
  | case1 => rfl
  | case2 lo =>
    rw [words32, List.map_singleton]
    congr 1
    apply UInt32.toNat_inj.1
    simp
  | case3 lo hi rest ih =>
    rw [words32, ih, List.map_cons]
    congr 1
    apply UInt32.toNat_inj.1
    have hlo := lo.toNat_lt
    have hhi := hi.toNat_lt
    have hshift : (hi.toUInt32 <<< 8).toNat = 2 ^ 8 * hi.toNat := by
      simp [UInt32.toNat_shiftLeft, Nat.shiftLeft_eq]
      omega
    rw [UInt32.toNat_or, hshift, UInt8.toNat_toUInt32, Nat.or_comm,
      ← Nat.two_pow_add_eq_or_of_lt hlo, toNat_ofNat_of_lt (by omega), Nat.add_comm]

theorem fold_add_le (hsum : sum ≤ 65535) (hw : w ≤ 65535) : fold (sum + w) ≤ 65535 := by
  unfold fold
  omega

/-- The sum fits at every word, since what the word before it left was small. -/
theorem total?_ofNat (hws : ∀ w ∈ ws, w ≤ 65535) (hsum : sum ≤ 65535) :
    total field position sum ws ≤ 65535 ∧
      total? field position (.ofNat sum) (ws.map .ofNat)
        = some (.ofNat (total field position sum ws)) := by
  induction ws generalizing position sum with
  | nil => exact ⟨hsum, rfl⟩
  | cons w ws ih =>
    obtain ⟨hw, hrest⟩ := List.forall_mem_cons.1 hws
    rw [List.map_cons, total, total?]
    dsimp only
    split
    · exact ih hrest hsum
    · have hadd := add?_ofNat (m := sum) (n := w) (by omega)
      have hfold := fold?_ofNat (n := sum + w) (by omega)
      rw [hadd, Option.bind_eq_bind, Option.bind_some, hfold]
      exact ih hrest (fold_add_le hsum hw)

theorem compute?_eq (b : Bytes) (field : Nat) :
    compute? b field = some (.ofNat (compute b field)) := by
  obtain ⟨hle, htotal⟩ : total field 0 0 (words b) ≤ 65535 ∧
      total? field 0 (.ofNat 0) ((words b).map .ofNat)
        = some (.ofNat (total field 0 0 (words b))) :=
    total?_ofNat le_of_mem_words (Nat.zero_le 65535)
  have hfold := fold?_ofNat (n := total field 0 0 (words b)) (by omega)
  have hzero : (0 : UInt32) = .ofNat 0 := rfl
  rw [compute?, words32_eq, hzero, htotal, Option.bind_eq_bind, Option.bind_some, hfold,
    Option.bind_some, Option.pure_def, Option.some.injEq]
  apply UInt32.toNat_inj.1
  simp [compute, UInt32.toNat_add]

/-- The checksum of octets whose field starts with a word. No addition takes more than 32 bits, and
the result is the sum of all words, with the field set to zero and all carries folded in, and the
length. -/
theorem compute_eq_sum (b : Bytes) (hfield : Even field) :
    let sum := (words (cleared b field)).sum
    compute? b field = some (.ofNat (compute b field)) ∧
      compute b field
        = ((if sum = 0 then 0 else (sum - 1) % 65535 + 1) + b.length) % 2 ^ 32 := by
  dsimp only
  refine ⟨compute?_eq b field, ?_⟩
  rw [compute_eq, octetSum_eq_sum b hfield]
  rfl

/-- The words around the field leave a carry twice, and a last octet stands alone. -/
theorem compute_eq_sum_carried :
    let b : Bytes := [0xff, 0xff, 0x12, 0x34, 0x56, 0x78, 0xff, 0xff, 0x05]
    Even 2 ∧ (words (cleared b 2)).sum = 131075 ∧ compute? b 2 = some 14 := by
  intro b
  have hfield : Even 2 := even_two
  obtain ⟨hcompute, hsum⟩ := compute_eq_sum b hfield
  refine ⟨hfield, by decide, ?_⟩
  rw [hcompute, hsum]
  decide

end Authenticode.Pe.Checksum
