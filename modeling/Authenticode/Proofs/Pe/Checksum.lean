import Authenticode.Proofs.Pe.Growth
import Authenticode.Proofs.Pe.Table

/-!
# The checksum and its own field

The checksum is to count an image as if the field that stores it were zero. The words
are taken from the start of the file, though, and only those that *start* inside of the
field are left out. So each octet has a fixed weight in the sum, and that weight is zero
for the whole field exactly when the field starts with a word. Where it starts in the
middle of one, its first octet counts, and what is stored there decides whether the
checksum still holds once it has been written.
-/

namespace Authenticode.Pe.Checksum

variable {a b : Bytes} {field m n w position : Nat}

/-- What is left of a sum once all carries are folded in. Only zero itself becomes zero. -/
def residue (n : Nat) : Nat := if n = 0 then 0 else (n - 1) % 65535 + 1

theorem residue_le (n : Nat) : residue n ≤ 65535 := by
  unfold residue
  split <;> omega

theorem residue_eq_iff : residue m = residue n ↔ (m = 0 ↔ n = 0) ∧ m % 65535 = n % 65535 := by
  unfold residue
  split <;> split <;> omega

theorem fold_residue_add (hw : w ≤ 65535) : fold (residue n + w) = residue (n + w) := by
  unfold fold residue
  split <;> split <;> omega

/-- The plain sum of the words that start outside of the field. -/
def wordSum (field : Nat) : (position : Nat) → List Nat → Nat
  | _, [] => 0
  | position, w :: ws =>
    (if field ≤ position ∧ position < field + fieldLength then 0 else w)
      + wordSum field (position + 2) ws

/-- Folding after every addition leaves what folding the whole sum leaves. -/
theorem total_residue {ws : List Nat} (hws : ∀ w ∈ ws, w ≤ 65535) :
    total field position (residue n) ws = residue (n + wordSum field position ws) := by
  induction ws generalizing n position with
  | nil => rfl
  | cons w ws ih =>
    obtain ⟨hw, hrest⟩ := List.forall_mem_cons.1 hws
    unfold total wordSum
    dsimp only
    split
    · rw [ih hrest, Nat.zero_add]
    · rw [fold_residue_add hw, ih hrest, Nat.add_assoc]

theorem le_of_mem_words : ∀ w ∈ words b, w ≤ 65535 := by
  fun_induction words b with
  | case1 => exact List.forall_mem_nil _
  | case2 lo =>
    have hlo := lo.toNat_lt
    exact List.forall_mem_singleton.2 (by omega)
  | case3 lo hi rest ih =>
    have hlo := lo.toNat_lt
    have hhi := hi.toNat_lt
    exact List.forall_mem_cons.2 ⟨by omega, ih⟩

/-- What the octet at a position counts for: nothing in a word that starts inside of the field. -/
def weight (field i : Nat) : Nat :=
  if field ≤ i - i % 2 ∧ i - i % 2 < field + fieldLength then 0 else if i % 2 = 0 then 1 else 256

theorem weight_lower (h : position % 2 = 0) : weight field position
    = if field ≤ position ∧ position < field + fieldLength then 0 else 1 := by
  unfold weight
  rw [h, if_pos rfl, Nat.sub_zero]

theorem weight_upper (h : position % 2 = 0) : weight field (position + 1)
    = if field ≤ position ∧ position < field + fieldLength then 0 else 256 := by
  have hodd : (position + 1) % 2 = 1 := by omega
  unfold weight
  rw [hodd, if_neg Nat.one_ne_zero, Nat.add_sub_cancel]

theorem wordSum_words (b : Bytes) (hposition : position % 2 = 0) :
    wordSum field position (words b)
      = ∑ i ∈ Finset.range b.length, weight field (position + i) * (b.getD i 0).toNat := by
  fun_induction words b generalizing position with
  | case1 => rfl
  | case2 lo =>
    rw [List.length_singleton, Finset.sum_range_one, Nat.add_zero, weight_lower hposition]
    simp [wordSum]
  | case3 lo hi rest ih =>
    have hshift : ∀ i, position + 2 + i = position + (i + 1 + 1) := by omega
    rw [wordSum, ih (by omega), List.length_cons, List.length_cons, Finset.sum_range_succ',
      Finset.sum_range_succ', Nat.zero_add, Nat.add_zero position, weight_lower hposition,
      weight_upper hposition]
    simp only [List.getD_cons_succ, List.getD_cons_zero, hshift]
    split <;> omega

def octetSum (field : Nat) (b : Bytes) : Nat :=
  ∑ i ∈ Finset.range b.length, weight field i * (b.getD i 0).toNat

/-- The checksum in one piece: the weighted sum of the octets, folded once, and the length. -/
theorem compute_eq (b : Bytes) (field : Nat) :
    compute b field = (residue (octetSum field b) + b.length) % 0x100000000 := by
  have htotal : total field 0 (residue 0) (words b) = residue (0 + wordSum field 0 (words b)) :=
    total_residue le_of_mem_words
  have hfold := fold_residue_add (n := octetSum field b) (Nat.zero_le 65535)
  rw [wordSum_words b rfl, Nat.zero_add] at htotal
  simp only [Nat.zero_add] at htotal
  rw [Nat.add_zero, Nat.add_zero] at hfold
  rw [compute, show total field 0 0 (words b) = _ from htotal]
  exact congrArg (fun n => (n + b.length) % 0x100000000) hfold

theorem compute_lt (b : Bytes) (field : Nat) : compute b field < 2 ^ 32 := Nat.mod_lt _ (by decide)

theorem compute_eq_iff (hlength : a.length = b.length) :
    compute a field = compute b field ↔
      residue (octetSum field a) = residue (octetSum field b) := by
  have ha := residue_le (octetSum field a)
  have hb := residue_le (octetSum field b)
  rw [compute_eq, compute_eq, hlength]
  omega

section

variable (h : Bytes.AgreeOff (Bytes.Within field fieldLength) a b)
include h

theorem term_eq {i : Nat} (hi : Bytes.Within field fieldLength i → weight field i = 0) :
    weight field i * (a.getD i 0).toNat = weight field i * (b.getD i 0).toNat := by
  by_cases hin : Bytes.Within field fieldLength i
  · rw [hi hin, Nat.zero_mul, Nat.zero_mul]
  · rw [List.getD_eq_getElem?_getD, h.2 i hin, List.getD_eq_getElem?_getD]

theorem octetSum_congr (heven : field % 2 = 0) : octetSum field a = octetSum field b := by
  unfold octetSum
  rw [h.1]
  refine Finset.sum_congr rfl fun i _ => term_eq h ?_
  rintro ⟨hle, hlt⟩
  unfold fieldLength at hlt
  exact if_pos ⟨by omega, by unfold fieldLength; omega⟩

/-- A field that starts inside of a word leaves that word to be counted, with its own first octet in
the upper half. -/
theorem octetSum_add (hodd : field % 2 = 1) (hin : field < b.length) :
    octetSum field a + 256 * (b.getD field 0).toNat
      = octetSum field b + 256 * (a.getD field 0).toNat := by
  have hweight : weight field field = 256 := by
    unfold weight
    rw [hodd, if_neg (by omega), if_neg Nat.one_ne_zero]
  have hmem : field ∈ Finset.range b.length := Finset.mem_range.2 hin
  have hothers : ∀ i ∈ (Finset.range b.length).erase field,
      weight field i * (a.getD i 0).toNat = weight field i * (b.getD i 0).toNat := by
    intro i hi
    have hne := Finset.ne_of_mem_erase hi
    refine term_eq h ?_
    rintro ⟨hle, hlt⟩
    unfold fieldLength at hlt
    exact if_pos ⟨by omega, by unfold fieldLength; omega⟩
  unfold octetSum
  rw [h.1, ← Finset.add_sum_erase _ _ hmem, ← Finset.add_sum_erase _ _ hmem,
    Finset.sum_congr rfl hothers, hweight]
  omega

/-- The checksum does not depend on the four octets of its field, unless the field starts inside of
a word: then it depends on the first of them. -/
theorem compute_eq_iff_of_agreeOff (hin : field < b.length) :
    compute a field = compute b field ↔ Even field ∨ a[field]? = b[field]? := by
  rw [compute_eq_iff h.1, Nat.even_iff]
  rcases Nat.mod_two_eq_zero_or_one field with heven | hodd
  · rw [octetSum_congr h heven]
    exact iff_of_true rfl (.inl heven)
  · have hin' : field < a.length := h.1 ▸ hin
    have hsum := octetSum_add h hodd hin
    have hsame : a[field]? = b[field]? ↔ (a.getD field 0).toNat = (b.getD field 0).toNat := by
      simp only [List.getD_eq_getElem?_getD, List.getElem?_eq_getElem hin,
        List.getElem?_eq_getElem hin', Option.getD_some, Option.some.injEq, UInt8.toNat_inj]
    have ha := (a.getD field 0).toNat_lt
    have hb := (b.getD field 0).toNat_lt
    rw [residue_eq_iff, hsame]
    omega

end

end Authenticode.Pe.Checksum

namespace Authenticode.Pe.Image

open Bytes (AgreeOff Within)

variable {i j k : Image} {l : Layout} {base table t : Bytes} {d : CertificateDirectory}
  {w : Option Warning} {n : Nat}

/-- The stored checksum is that of the octets as they are. -/
def HasChecksum (i : Image) : Prop :=
  i.storedChecksum = .ok (Checksum.compute i.bytes i.layout.checksumOffset)

theorem storedChecksum_eq_ok_iff : i.storedChecksum = .ok n ↔ n < 2 ^ 32 ∧
    i.bytes.slice? i.layout.checksumOffset (i.layout.checksumOffset + Checksum.fieldLength)
      = some (Bytes.ofLe Checksum.fieldLength n) := by
  rw [storedChecksum, number_eq_ok_iff, Bytes.u32?_eq_some_iff]
  rfl

theorem updateChecksum_eq_ok_iff : updateChecksum i = .ok () j ↔
    i.layout.checksumOffset + Checksum.fieldLength ≤ i.length ∧
      j = i.withBytes (i.bytes.overwrite i.layout.checksumOffset
        (Bytes.ofLe Checksum.fieldLength (Checksum.compute i.bytes i.layout.checksumOffset))) := by
  by_cases hin : i.layout.checksumOffset + Checksum.fieldLength ≤ i.length
  · rw [updateChecksum_of_le hin, EStateM.Result.ok.injEq]
    exact ⟨fun h => ⟨hin, h.2.symm⟩, fun h => ⟨rfl, h.2.symm⟩⟩
  · rw [updateChecksum_of_lt (Nat.not_le.1 hin)]
    exact ⟨nofun, fun h => absurd h.1 hin⟩

/-- What updating the checksum leaves: the checksum of the octets as they were before. -/
theorem storedChecksum_of_updateChecksum (h : updateChecksum i = .ok () j) :
    j.layout = i.layout ∧
      AgreeOff (Within i.layout.checksumOffset Checksum.fieldLength) j.bytes i.bytes ∧
      j.storedChecksum = .ok (Checksum.compute i.bytes i.layout.checksumOffset) := by
  obtain ⟨hin, rfl⟩ := updateChecksum_eq_ok_iff.1 h
  set sum := Bytes.ofLe Checksum.fieldLength (Checksum.compute i.bytes i.layout.checksumOffset)
  have hsum : sum.length = Checksum.fieldLength := Bytes.length_ofLe _ _
  have hle : i.layout.checksumOffset + sum.length ≤ i.bytes.length := hsum ▸ hin
  refine ⟨rfl, hsum ▸ Bytes.agreeOff_overwrite hle, ?_⟩
  refine storedChecksum_eq_ok_iff.2 ⟨Checksum.compute_lt _ _, ?_⟩
  rw [layout_withBytes, bytes_withBytes, ← hsum]
  exact Bytes.slice?_overwrite hle

theorem checksum_le_of_updateChecksum (h : updateChecksum i = .ok () j) :
    i.layout.checksumOffset < i.bytes.length := by
  obtain ⟨hin, -⟩ := updateChecksum_eq_ok_iff.1 h
  unfold Checksum.fieldLength length at hin
  omega

/-- After an update the checksum holds, unless the first octet of the field counts and changed. -/
theorem hasChecksum_iff_of_updateChecksum (h : updateChecksum i = .ok () j) :
    j.HasChecksum ↔ Even i.layout.checksumOffset ∨
      j.bytes[i.layout.checksumOffset]? = i.bytes[i.layout.checksumOffset]? := by
  obtain ⟨hlayout, hagree, hstored⟩ := storedChecksum_of_updateChecksum h
  rw [HasChecksum, hstored, hlayout, Except.ok.injEq, eq_comm]
  exact Checksum.compute_eq_iff_of_agreeOff hagree (checksum_le_of_updateChecksum h)

theorem eq_iff_hasChecksum_of_updateChecksum (h : updateChecksum j = .ok () k) :
    k = j ↔ j.HasChecksum := by
  constructor
  · rintro rfl
    exact (storedChecksum_of_updateChecksum h).2.2
  · intro hstored
    obtain ⟨-, rfl⟩ := updateChecksum_eq_ok_iff.1 h
    obtain ⟨-, hslice⟩ := storedChecksum_eq_ok_iff.1 hstored
    rw [Bytes.overwrite_slice? (by rwa [Bytes.length_ofLe])]
    rfl

/-- The octets in front of the directory entry, the checksum among them, are the same. -/
def SameFront (i j : Image) : Prop :=
  ∀ p < i.layout.directoryOffset, j.bytes[p]? = i.bytes[p]?

theorem SameFront.trans (h : i.SameFront j) (hlayout : j.layout = i.layout) (h' : j.SameFront k) :
    i.SameFront k :=
  fun p hp => (h' p (hlayout ▸ hp)).trans (h p hp)

theorem sameFront_of_growTable {amount : Nat} (h : growTable amount i = .ok () j) :
    i.SameFront j := by
  intro p hp
  by_cases hamount : amount = 0
  · rw [hamount, growTable_zero] at h
    cases h
    rfl
  · obtain ⟨d, e, hgrows⟩ := grows_of_growTable hamount h
    exact hgrows.getElem?_front hp

theorem getElem?_withoutTable (hentry : i.layout.directoryOffset + directoryEntrySize ≤ i.length)
    {p : Nat} (hp : p < i.layout.directoryOffset) (hin : p < (i.withoutTable d).length) :
    (i.withoutTable d).bytes[p]? = i.bytes[p]? := by
  have hsame := getElem?_withDirectory (d := .none) hentry hp
  unfold withoutTable at hin ⊢
  by_cases hcut : d.stop = i.length
  · rw [if_pos hcut] at hin ⊢
    rw [length_withBytes, List.length_take] at hin
    rw [bytes_withBytes, List.getElem?_take_of_lt (by omega), hsame]
  · rw [if_neg hcut]
    exact hsame

theorem hasChecksum_iff_of_clearTable (hordered : i.layout.Ordered) (hd : i.directory = .ok d)
    (he : d.isEmpty = false) (h : clearTable i = .ok w j) :
    j.HasChecksum ↔ Even i.layout.checksumOffset ∨
      j.bytes[i.layout.checksumOffset]? = i.bytes[i.layout.checksumOffset]? := by
  rw [clearTable_of_table hd he] at h
  cases hupdate : updateChecksum (i.withoutTable d) with
  | error f y =>
    rw [hupdate] at h
    cases h
  | ok _ y =>
    rw [hupdate] at h
    cases h
    have hfield := checksum_le_of_updateChecksum hupdate
    have hiff := hasChecksum_iff_of_updateChecksum hupdate
    have hle := hordered.checksum_le
    unfold Checksum.fieldLength at hle
    rw [layout_withoutTable] at hiff hfield
    rwa [getElem?_withoutTable (entry_le_of_directory hd) (by omega) hfield] at hiff

theorem Over.sameFront_of_writeTable (hover : i.Over l base table)
    (h : Image.writeTable t i = .ok () j) : i.SameFront j := by
  intro p hp
  obtain ⟨d, hd, hfits⟩ := le_reserved_of_writeTable h
  by_cases htable : table = []
  · obtain ⟨d', hd', hempty⟩ := hover.entry
    cases hd.symm.trans hd'
    have he := hempty.1 htable
    rw [writeTable_of_le hd hfits fun hnone => absurd (he.symm.trans hnone) Bool.noConfusion,
      if_pos he] at h
    cases h
    rfl
  · have hholds := hover.holds htable
    cases hd.symm.trans (hholds.directory_of_table htable)
    have hentry := hholds.entry_le
    have hlayout := hholds.layout_eq
    have hlength := hholds.length_eq
    rw [writeTable_of_le hd hfits fun _ => hholds.stop_eq.le, hholds.isEmpty_table htable,
      if_neg Bool.false_ne_true] at h
    cases h
    have hin : base.aligned.length + (t.resize table.length).length ≤ i.bytes.length := by
      rw [Bytes.length_resize]
      exact hlength.ge
    refine (Bytes.agreeOff_overwrite hin).2 p fun hwithin => ?_
    have := hwithin.1
    rw [hlayout] at hp
    omega

/-- Exchanging the table keeps the front, unless it takes away the last table. -/
theorem Over.sameFront_of_replaceTable (hover : i.Over l base table) (ht : t = [] → table = [])
    (h : Image.replaceTable t i = .ok w j) : i.SameFront j := by
  intro p hp
  obtain ⟨d, hd, hempty⟩ := hover.entry
  by_cases hnil : t = []
  · subst hnil
    rw [replaceTable_nil hd, if_pos (hempty.1 (ht rfl))] at h
    cases h
    rfl
  · cases htail : Image.tailDirectory i with
    | error f y =>
      rw [replaceTable_of_tail_error hd hnil htail] at h
      cases h
    | ok tail y =>
      obtain ⟨d', filling, hfills, rfl⟩ := fills_of_tailDirectory htail
      obtain ⟨hlayout, -, htail_eq, -⟩ := hover.tailDirectory htail
      rw [layout_withBytes] at hlayout
      have hbefore : i.layout.directoryOffset + directoryEntrySize ≤ tail.offset := by
        rw [hlayout, htail_eq]
        exact hover.1.trans (Bytes.length_le_aligned base)
      have hentry : i.layout.directoryOffset + directoryEntrySize
          ≤ ((i.bytes ++ Bytes.zeros filling).take tail.offset ++ t).length := by
        rw [List.length_append, List.length_take_of_le hfills.offset_le]
        exact hbefore.trans (Nat.le_add_right _ _)
      obtain ⟨-, rfl⟩ := eq_withDirectory_of_replaceTable hd hnil htail hentry h
      have hin : p < i.bytes.length :=
        hp.trans_le ((Nat.le_add_right _ _).trans (entry_le_of_directory hd))
      rw [getElem?_withDirectory, bytes_withBytes, bytes_withBytes,
        Bytes.getElem?_take_append hin (by omega)]
      · exact hentry
      · exact hp

end Authenticode.Pe.Image
