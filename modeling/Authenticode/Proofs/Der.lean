import Authenticode.Der
import Authenticode.Proofs.Bytes
import Authenticode.Proofs.Steps

/-!
# Reading what was written

An element that was written is read back, whatever stands behind it: the reader
looks at the octets of the element alone. So the items of a constructed element are
found one after the other. The only limit is that of the length field, which the
reader takes in up to four octets.
-/
namespace Authenticode

namespace Bytes

theorem beNat_append (a b : Bytes) : beNat (a ++ b) = beNat a * 256 ^ b.length + beNat b := by
  induction b using List.reverseRecOn with
  | nil => simp [beNat]
  | append_singleton b d ih =>
    have hlast : ∀ c : Bytes, beNat (c ++ [d]) = 256 * beNat c + d.toNat := by
      intro c
      simp [beNat]
    rw [← List.append_assoc, hlast, ih, hlast, List.length_append, List.length_singleton,
      Nat.pow_succ]
    ring

theorem beNat_cons (d : UInt8) (ds : Bytes) :
    beNat (d :: ds) = d.toNat * 256 ^ ds.length + beNat ds := by
  have h := beNat_append [d] ds
  simpa [beNat] using h

theorem magnitude_go_eq (n : Nat) (acc : Bytes) : magnitude.go n acc = magnitude n ++ acc := by
  unfold magnitude
  induction n using Nat.strongRecOn generalizing acc with
  | _ n ih =>
    by_cases hn : n = 0
    · simp [magnitude.go, hn]
    · rw [magnitude.go, if_neg hn, ih _ (by omega), magnitude.go.eq_def n [], if_neg hn,
        ih _ (by omega) [n.toUInt8], List.append_assoc, List.singleton_append]

theorem magnitude_zero : magnitude 0 = [] := by simp [magnitude, magnitude.go]

theorem magnitude_of_pos {n : Nat} (hn : 0 < n) :
    magnitude n = magnitude (n / 256) ++ [n.toUInt8] := by
  rw [← magnitude_go_eq, magnitude, magnitude.go, if_neg (by omega)]

theorem beNat_magnitude (n : Nat) : beNat (magnitude n) = n := by
  induction n using Nat.strongRecOn with
  | _ n ih =>
    rcases Nat.eq_zero_or_pos n with rfl | hn
    · rw [magnitude_zero]
      rfl
    · have hlast : beNat [n.toUInt8] = n % 256 := by simp [beNat, UInt8.toNat_ofNat']
      rw [magnitude_of_pos hn, beNat_append, ih _ (by omega), hlast]
      simp only [List.length_singleton, Nat.pow_one]
      omega

theorem length_magnitude_le_iff {n w : Nat} : (magnitude n).length ≤ w ↔ n < 256 ^ w := by
  induction w generalizing n with
  | zero =>
    rcases Nat.eq_zero_or_pos n with rfl | hn
    · simp [magnitude_zero]
    · simp [magnitude_of_pos hn]
      omega
  | succ w ih =>
    rcases Nat.eq_zero_or_pos n with rfl | hn
    · simp [magnitude_zero]
    · rw [magnitude_of_pos hn, List.length_append, List.length_singleton, Nat.add_le_add_iff_right,
        ih, Nat.pow_succ, Nat.div_lt_iff_lt_mul (by omega)]

end Bytes

namespace Der

variable {tag : UInt8} {n : Nat} {c data tail : Bytes} {e : Element}

theorem toNat_announced {k : Nat} (hk : k ≤ maxDigits) : (0x80 ||| k.toUInt8).toNat = 0x80 + k := by
  have h : ∀ k < maxDigits + 1, (0x80 ||| k.toUInt8).toNat = 0x80 + k := by decide
  exact h k (by omega)

/-- A length is read back when it has at most four digits, and refused otherwise. -/
theorem readLength_encodeLength_append (n : Nat) (tail : Bytes) :
    readLength (encodeLength n ++ tail) =
      if n < 2 ^ 32 then .ok (n, (encodeLength n).length) else refuse .lengthTooLarge := by
  unfold encodeLength
  split
  · next hshort =>
    have hnat : n.toUInt8.toNat = n := by
      rw [Nat.toUInt8, UInt8.toNat_ofNat']
      omega
    have hlt : n.toUInt8 < 0x80 := by
      rw [UInt8.lt_iff_toNat_lt, hnat]
      exact hshort
    rw [List.singleton_append, readLength, if_pos hlt, hnat, if_pos (by omega)]
    rfl
  · next hlong =>
    dsimp only
    have hdigits : 0 < (Bytes.magnitude n).length := by
      by_contra hnone
      have := Bytes.length_magnitude_le_iff.1 (Nat.le_of_not_lt hnone)
      omega
    have hfour : (Bytes.magnitude n).length ≤ 4 ↔ n < 2 ^ 32 := Bytes.length_magnitude_le_iff
    generalize hmark : 0x80 ||| (min (Bytes.magnitude n).length maxDigits).toUInt8 = mark
    have hnat : mark.toNat = 0x80 + min (Bytes.magnitude n).length maxDigits := by
      rw [← hmark, toNat_announced (Nat.min_le_right _ _)]
    have hge : ¬mark < 0x80 := by
      rw [UInt8.lt_iff_toNat_lt, hnat]
      exact Nat.not_lt.2 (Nat.le_add_right _ _)
    have hne : mark ≠ 0x80 := by
      intro heq
      rw [heq] at hnat
      change 128 = _ at hnat
      unfold maxDigits at hnat
      omega
    have hcount : mark.toNat - 0x80 = min (Bytes.magnitude n).length maxDigits := by omega
    rw [List.cons_append, readLength, if_neg hge, if_neg hne]
    dsimp only
    rw [hcount]
    unfold maxDigits
    by_cases hn : n < 2 ^ 32
    · have hle := hfour.2 hn
      rw [Nat.min_eq_left (by omega), if_neg (by omega), List.length_append, if_neg (by omega),
        List.take_left, Bytes.beNat_magnitude, if_pos hn, List.length_cons]
    · have hlt := mt hfour.1 hn
      rw [if_pos (by omega), if_neg hn]

/-- An element that was written is read back, unless the reader does not take its length. -/
theorem read_encode_append (htag : tag &&& 0x1f ≠ 0x1f) (c tail : Bytes) :
    read (encode tag c ++ tail) =
      if c.length < 2 ^ 32 then .ok ⟨tag, encode tag c, c⟩ else refuse .lengthTooLarge := by
  have hsplit : encode tag c ++ tail = tag :: (encodeLength c.length ++ (c ++ tail)) := by
    simp [encode]
  rw [hsplit, read, if_neg htag, readLength_encodeLength_append]
  split
  · have hin : ¬(encodeLength c.length ++ (c ++ tail)).length + 1
        < 1 + (encodeLength c.length).length + c.length := by
      simp only [List.length_append]
      omega
    have htake : (tag :: (encodeLength c.length ++ (c ++ tail))).take
        (1 + (encodeLength c.length).length + c.length) = encode tag c := by
      rw [← hsplit]
      apply List.take_left'
      simp [encode]
      omega
    have hdrop : (encode tag c).drop (1 + (encodeLength c.length).length) = c := by
      have hhead : encode tag c = (tag :: encodeLength c.length) ++ c := rfl
      rw [hhead]
      apply List.drop_left'
      rw [List.length_cons, Nat.add_comm]
    change (if _ then _ else _) = _
    rw [if_neg hin, htake, hdrop]
  · rfl

theorem readLength_take_append {a : Bytes} {length octets : Nat}
    (h : readLength a = .ok (length, octets)) (tail : Bytes) :
    readLength (a.take octets ++ tail) = .ok (length, octets) := by
  cases a with
  | nil => cases h
  | cons first rest =>
    rw [readLength] at h
    split at h
    · next hshort =>
      cases h
      rw [List.take_succ_cons, List.cons_append, readLength, if_pos hshort]
    · next hlong =>
      split at h
      · cases h
      · next hdefinite =>
        dsimp only at h
        split at h
        · cases h
        · next hfour =>
          split at h
          · cases h
          · next hin =>
            rw [Except.ok.injEq, Prod.mk.injEq] at h
            obtain ⟨rfl, rfl⟩ := h
            have hlength : (rest.take (first.toNat - 0x80)).length = first.toNat - 0x80 := by
              rw [List.length_take]
              omega
            rw [List.take_succ_cons, List.cons_append, readLength, if_neg hlong, if_neg hdefinite]
            dsimp only
            rw [if_neg hfour, List.length_append, hlength, if_neg (by omega),
              List.take_left' hlength]

theorem read_cons_eq_ok_iff {rest : Bytes} :
    read (tag :: rest) = .ok e ↔ tag &&& 0x1f ≠ 0x1f ∧ ∃ length octets,
      readLength rest = .ok (length, octets) ∧ octets + length ≤ rest.length ∧
      e = ⟨tag, tag :: rest.take (octets + length), (rest.take (octets + length)).drop octets⟩ := by
  rw [read]
  split
  · next htag =>
    constructor
    · intro h
      cases h
    · rintro ⟨h, -⟩
      exact absurd htag h
  · next htag =>
    rw [Except.bind_eq_ok_iff]
    have hcut : ∀ length octets, (tag :: rest).take (1 + octets + length)
        = tag :: rest.take (octets + length) := by
      intro length octets
      rw [Nat.add_assoc, Nat.add_comm 1, List.take_succ_cons]
    constructor
    · rintro ⟨⟨length, octets⟩, hlength, h⟩
      dsimp only at h
      split at h
      · cases h
      · next hin =>
        cases h
        refine ⟨htag, length, octets, hlength, by omega, ?_⟩
        rw [hcut, Nat.add_comm 1, List.drop_succ_cons]
    · rintro ⟨-, length, octets, hlength, hin, rfl⟩
      refine ⟨(length, octets), hlength, ?_⟩
      dsimp only
      rw [if_neg (by omega), hcut, Nat.add_comm 1, List.drop_succ_cons]

theorem tag_of_read (h : read data = .ok e) :
    e.tag &&& 0x1f ≠ 0x1f := by
  cases data with
  | nil => cases h
  | cons tag rest =>
    obtain ⟨htag, _, _, -, -, rfl⟩ := read_cons_eq_ok_iff.1 h
    exact htag

theorem raw_append_drop_of_read (h : read data = .ok e) :
    e.raw ++ data.drop e.raw.length = data := by
  rw [← List.prefix_iff_eq_append]
  cases data with
  | nil => cases h
  | cons tag rest =>
    obtain ⟨-, length, octets, -, -, rfl⟩ := read_cons_eq_ok_iff.1 h
    exact (List.prefix_cons_inj tag).2 (List.take_prefix ..)

theorem length_raw_le_of_read (h : read data = .ok e) : e.raw.length ≤ data.length :=
  (List.prefix_iff_eq_append.2 (raw_append_drop_of_read h)).length_le

theorem read_raw_append (h : read data = .ok e) (tail : Bytes) : read (e.raw ++ tail) = .ok e := by
  cases data with
  | nil => cases h
  | cons tag rest =>
    obtain ⟨htag, length, octets, hlength, hin, rfl⟩ := read_cons_eq_ok_iff.1 h
    have hsplit : rest.take (octets + length) ++ tail
        = rest.take octets ++ ((rest.drop octets).take length ++ tail) := by
      rw [List.take_add, List.append_assoc]
    have htaken : (rest.take (octets + length)).length = octets + length := by
      rw [List.length_take]
      omega
    rw [List.cons_append]
    refine read_cons_eq_ok_iff.2 ⟨htag, length, octets, ?_, ?_, ?_⟩
    · rw [hsplit]
      exact readLength_take_append hlength _
    · rw [List.length_append, htaken]
      exact Nat.le_add_right _ _
    · rw [List.take_left' htaken]

theorem read_raw (h : read data = .ok e) : read e.raw = .ok e := by
  have hagain := read_raw_append h []
  rwa [List.append_nil] at hagain

theorem read_encode_eq_ok_iff (htag : tag &&& 0x1f ≠ 0x1f) :
    read (encode tag c) = .ok e ↔ c.length < 2 ^ 32 ∧ e = ⟨tag, encode tag c, c⟩ := by
  have hread := read_encode_append htag c []
  rw [List.append_nil] at hread
  rw [hread]
  split
  · next hc =>
    rw [Except.ok.injEq]
    exact ⟨fun h => ⟨hc, h.symm⟩, fun h => h.2.symm⟩
  · next hc => exact ⟨nofun, fun h => absurd h.1 hc⟩

theorem read_encode (tag : UInt8) (htag : tag &&& 0x1f ≠ 0x1f) (hc : c.length < 2 ^ 32) :
    read (encode tag c) = .ok ⟨tag, encode tag c, c⟩ :=
  (read_encode_eq_ok_iff htag).2 ⟨hc, rfl⟩

/-- Elements with these tags and contents, one after the other. -/
def encodeAll (items : List (UInt8 × Bytes)) : Bytes := items.flatMap fun q => encode q.1 q.2

theorem length_encode (tag : UInt8) (c : Bytes) :
    (encode tag c).length = 1 + (encodeLength c.length).length + c.length := by
  simp only [encode, List.length_append, List.length_cons]
  omega

theorem length_encodeLength_mono {m : Nat} (h : m ≤ n) :
    (encodeLength m).length ≤ (encodeLength n).length := by
  unfold encodeLength
  dsimp only
  by_cases hm : m < 0x80
  · rw [if_pos hm]
    split
    · exact le_rfl
    · exact Nat.le_add_left _ _
  · rw [if_neg hm, if_neg (by omega), List.length_cons, List.length_cons, Nat.add_le_add_iff_right,
      Bytes.length_magnitude_le_iff]
    exact h.trans_lt (Bytes.length_magnitude_le_iff.1 le_rfl)

theorem length_encode_mono {tag' : UInt8} {c' : Bytes} (h : c.length ≤ c'.length) :
    (encode tag c).length ≤ (encode tag' c').length := by
  have hlength := length_encodeLength_mono h
  rw [length_encode, length_encode]
  omega

theorem length_flatten_mono {parts parts' : List Bytes}
    (h : List.Forall₂ (fun p p' => p.length ≤ p'.length) parts parts') :
    parts.flatten.length ≤ parts'.flatten.length := by
  induction h with
  | nil => exact le_rfl
  | cons hpart _ ih =>
    rw [List.flatten_cons, List.flatten_cons, List.length_append, List.length_append]
    exact Nat.add_le_add hpart ih

theorem length_encodeParts_mono {parts parts' : List Bytes}
    (h : List.Forall₂ (fun p p' => p.length ≤ p'.length) parts parts') :
    (encodeParts tag parts).length ≤ (encodeParts tag parts').length :=
  length_encode_mono (length_flatten_mono h)

theorem length_lt_length_encode (tag : UInt8) (c : Bytes) : c.length < (encode tag c).length := by
  simp [encode]

theorem length_lt_length_encodeAll (tag : UInt8) {items : List (UInt8 × Bytes)}
    (h : (tag, c) ∈ items) :
    c.length < (encodeAll items).length := by
  induction items with
  | nil => cases h
  | cons q rest ih =>
    rw [encodeAll, List.flatMap_cons, List.length_append]
    rcases List.mem_cons.1 h with rfl | hrest
    · exact (length_lt_length_encode tag c).trans_le (Nat.le_add_right _ _)
    · exact (ih hrest).trans_le (Nat.le_add_left _ _)

theorem elements_cons_of_read (h : read data = .ok e) :
    elements data = .ok e :: elements (data.drop e.raw.length) := by
  cases data with
  | nil => cases h
  | cons d ds => rw [elements, h]

theorem elements_append_of_read (h : read data = .ok e) (hraw : e.raw = c) (tail : Bytes) :
    elements (c ++ tail) = .ok e :: elements tail := by
  subst hraw
  rw [elements_cons_of_read (read_raw_append h tail), List.drop_left]

theorem elements_of_read (h : read data = .ok e) (hraw : e.raw = data) :
    elements data = [.ok e] := by
  have helements := elements_append_of_read h hraw []
  rwa [List.append_nil, elements] at helements

theorem item?_encode (tag : UInt8) (htag : tag &&& 0x1f ≠ 0x1f) (hsize : c.length < 2 ^ 32) :
    item? (encode tag c) 0 = .ok (some ⟨tag, encode tag c, c⟩) := by
  rw [item?, elements_of_read (read_encode tag htag hsize) rfl]
  rfl

theorem read_raw_of_mem_elements (h : .ok e ∈ elements data) : read e.raw = .ok e := by
  fun_induction elements data with
  | case1 => cases h
  | case2 d ds f hread => simp at h
  | case3 d ds f hread ih =>
    rcases List.mem_cons.1 h with hfirst | hrest
    · cases hfirst
      exact read_raw hread
    · exact ih hrest

theorem flatten_raw_of_elements {es : List Element}
    (h : elements data = es.map .ok) : (es.map (·.raw)).flatten = data := by
  fun_induction elements data generalizing es with
  | case1 =>
    cases es with
    | nil => rfl
    | cons e es => cases h
  | case2 d ds f hread =>
    cases es with
    | nil => cases h
    | cons e es => cases h
  | case3 d ds e hread ih =>
    cases es with
    | nil => cases h
    | cons e' es =>
      rw [List.map_cons, List.cons.injEq] at h
      cases h.1
      rw [List.map_cons, List.flatten_cons, ih h.2]
      exact raw_append_drop_of_read hread

theorem allElements_eq_ok_iff {es : List Element} :
    allElements data = .ok es ↔ elements data = es.map .ok := by
  rw [allElements, Except.mapM_eq_ok_iff, List.map_id]

/-- Every item is an element with a property exactly when all elements can be read and have it. -/
theorem forall_elements_iff {p : Element → Prop} :
    (∀ item ∈ elements data, ∃ e, item = .ok e ∧ p e) ↔
      ∃ es, allElements data = .ok es ∧ ∀ e ∈ es, p e := by
  constructor
  · intro h
    obtain ⟨es, hes⟩ : elements data ∈ Set.range (List.map .ok) := by
      rw [Set.range_list_map]
      exact fun item hitem => (h item hitem).imp fun e he => he.1.symm
    refine ⟨es, allElements_eq_ok_iff.2 hes.symm, ?_⟩
    intro e he
    obtain ⟨_, heq, hp⟩ := h (.ok e) (hes ▸ List.mem_map_of_mem he)
    cases heq
    exact hp
  · rintro ⟨es, hes, hp⟩ item hitem
    rw [allElements_eq_ok_iff.1 hes] at hitem
    obtain ⟨e, he, rfl⟩ := List.mem_map.1 hitem
    exact ⟨e, rfl, hp e he⟩

theorem elements_encodeAll_of_forall {items : List (UInt8 × Bytes)}
    (h : ∀ q ∈ items, q.1 &&& 0x1f ≠ 0x1f ∧ q.2.length < 2 ^ 32) :
    elements (encodeAll items) = items.map fun q => .ok ⟨q.1, encode q.1 q.2, q.2⟩ := by
  induction items with
  | nil => rw [encodeAll, List.flatMap_nil, elements, List.map_nil]
  | cons q rest ih =>
    obtain ⟨⟨htag, hlength⟩, hrest⟩ := List.forall_mem_cons.1 h
    have hread := read_encode_append htag q.2 (encodeAll rest)
    rw [if_pos hlength] at hread
    rw [encodeAll, List.flatMap_cons, List.map_cons, ← ih hrest]
    apply (elements_cons_of_read hread).trans
    rw [List.drop_left]

section

variable {items : List (UInt8 × Bytes)}
  (htags : ∀ q ∈ items, q.1 &&& 0x1f ≠ 0x1f)
  (hlength : (encodeAll items).length < 2 ^ 32)
include htags hlength

theorem elements_encodeAll :
    elements (encodeAll items) = items.map fun q => .ok ⟨q.1, encode q.1 q.2, q.2⟩ := by
  apply elements_encodeAll_of_forall
  intro q hq
  exact ⟨htags q hq, (length_lt_length_encodeAll q.1 hq).trans hlength⟩

theorem item?_encodeAll (i : Nat) (hi : items[i]? = some (tag, c)) :
    item? (encodeAll items) i = .ok (some ⟨tag, encode tag c, c⟩) := by
  rw [item?, elements_encodeAll htags hlength, List.getElem?_map, hi]
  rfl

theorem allElements_encodeAll :
    allElements (encodeAll items) = .ok (items.map fun q => ⟨q.1, encode q.1 q.2, q.2⟩) := by
  rw [allElements_eq_ok_iff, elements_encodeAll htags hlength, List.map_map]
  rfl

end

end Der

end Authenticode
