import Authenticode.Proofs.Pe.Bounds
import Authenticode.Proofs.Pe.Checksum
import Authenticode.Proofs.Pe.Growth
import Authenticode.Proofs.SignedImage

/-!
# Edits that fail half-way

An insertion makes the new list beside the old one and sets it last, so an insertion
that fails has changed nothing. A removal sets the shortened list first: where the
image does not take the table of the rest, the signature is gone from the list and
still in the image. Finishing never changes the list, and a failure to place the table
leaves the image alone unless part of the work was done: the filling in front of a
first table, the cut of the old table, or a table too long for its directory entry.
-/
namespace Authenticode

open Cms (Signature)

namespace Pe.Image

variable {i j : Image} {d : CertificateDirectory} {table : Bytes} {f : Error}

theorem ne_nil_of_long (h : 2 ^ 32 ≤ table.length) : table ≠ [] := by
  rintro rfl
  exact absurd h (by decide)

/-- How an image with the directory entry `d` fails to take a table: the error, and what is left of
the image. A run that is aborted is no failure of this kind. -/
inductive Refuses (i : Image) (d : CertificateDirectory) (table : Bytes) : Error → Image → Prop
  /-- Cutting off the last table has cut off the stored checksum. -/
  | checksum (hnil : table = []) (he : d.isEmpty = false) (hlast : d.stop = i.length)
      (hcut : d.offset < i.layout.checksumOffset + Checksum.fieldLength) :
      Refuses i d table (.image .checksumOutside) (i.withoutTable d)
  /-- A first table would start at 4 GiB or behind. -/
  | place (hsome : table ≠ []) (he : d.isEmpty = true) (hfar : 2 ^ 32 ≤ align8 i.length) :
      Refuses i d table (.image (.offsetTooLarge (align8 i.length))) i.padded
  /-- Other octets stand behind the table. -/
  | behind (hsome : table ≠ []) (he : d.isEmpty = false) (hlast : d.stop ≠ i.length) :
      Refuses i d table (.image .tableNotAtEnd) i
  /-- A first table takes up 4 GiB or more. -/
  | firstSize (hlong : 2 ^ 32 ≤ table.length) (he : d.isEmpty = true)
      (hnear : align8 i.length < 2 ^ 32) :
      Refuses i d table (.image (.offsetTooLarge table.length))
        (i.padded.withBytes (i.padded.bytes.take (align8 i.length) ++ table))
  /-- The new table takes up 4 GiB or more. -/
  | nextSize (hlong : 2 ^ 32 ≤ table.length) (he : d.isEmpty = false) (hlast : d.stop = i.length) :
      Refuses i d table (.image (.offsetTooLarge table.length))
        (i.withBytes (i.bytes.take d.offset ++ table))

theorem Refuses.ne_aborted (h : i.Refuses d table f j) : f ≠ .aborted := by
  cases h <;> exact Error.noConfusion

theorem setDirectory_of_lt (h : i.length < i.layout.directoryOffset + directoryEntrySize) :
    setDirectory d i = .error .aborted i := by
  rw [setDirectory, Step.get_bind, if_pos h, Step.throw_bind]

theorem length_withoutTable_of_last (hd : i.directory = .ok d) (he : d.isEmpty = false)
    (hlast : d.stop = i.length) : (i.withoutTable d).length = d.offset := by
  have hle : d.offset ≤ i.bytes.length := (Nat.le_add_right _ _).trans hlast.le
  rw [length_withoutTable hd he, base_of_stop_eq hd he hlast, List.length_take_of_le hle]

theorem Refuses.replaceTable_eq (h : i.Refuses d table f j) (hd : i.directory = .ok d) :
    replaceTable table i = .error f j := by
  cases h with
  | checksum hnil he hlast hcut =>
    have hout : (i.withoutTable d).length
        < (i.withoutTable d).layout.checksumOffset + Checksum.fieldLength := by
      rwa [length_withoutTable_of_last hd he hlast, layout_withoutTable]
    rw [hnil, replaceTable_nil hd, if_neg (he ▸ Bool.false_ne_true), clearTable_of_table hd he,
      updateChecksum_of_lt hout]
  | place hsome he hfar =>
    have htail := tailDirectory_of_isEmpty hd he
    rw [narrow_of_le hfar] at htail
    exact replaceTable_of_tail_error hd hsome htail
  | behind hsome he hlast =>
    have htail := tailDirectory_of_table hd he
    rw [if_neg hlast] at htail
    exact replaceTable_of_tail_error hd hsome htail
  | firstSize hlong he hnear =>
    have htail := tailDirectory_of_isEmpty hd he
    rw [narrow_of_lt hnear] at htail
    rw [replaceTable_of_tail hd (ne_nil_of_long hlong) htail, narrow_of_le hlong]
  | nextSize hlong he hlast =>
    have htail := tailDirectory_of_table hd he
    rw [if_pos hlast] at htail
    rw [replaceTable_of_tail hd (ne_nil_of_long hlong) htail, narrow_of_le hlong]

/-- Once its place is found, a table is refused for its size alone. -/
theorem long_of_replaceTable_error {tail : CertificateDirectory} {k : Image}
    (hd : i.directory = .ok d) (hsome : table ≠ []) (htail : tailDirectory i = .ok tail k)
    (hrun : replaceTable table i = .error f j) (hf : f ≠ .aborted) :
    2 ^ 32 ≤ table.length ∧ f = .image (.offsetTooLarge table.length) ∧
      j = k.withBytes (k.bytes.take tail.offset ++ table) := by
  rw [replaceTable_of_tail hd hsome htail] at hrun
  by_cases hlong : 2 ^ 32 ≤ table.length
  · rw [narrow_of_le hlong] at hrun
    cases hrun
    exact ⟨hlong, rfl, rfl⟩
  · rw [narrow_of_lt (Nat.not_le.1 hlong)] at hrun
    dsimp only at hrun
    generalize k.withBytes _ = replaced at hrun
    by_cases hin : replaced.layout.directoryOffset + directoryEntrySize ≤ replaced.length
    · rw [setDirectory_of_le hin] at hrun
      cases hrun
    · rw [setDirectory_of_lt (Nat.not_le.1 hin)] at hrun
      cases hrun
      exact absurd rfl hf

theorem Inside.refuses_nil (h : i.Inside) (hd : i.directory = .ok d)
    (hrun : replaceTable [] i = .error f j) : i.Refuses d [] f j := by
  rw [replaceTable_nil hd] at hrun
  cases he : d.isEmpty with
  | true =>
    rw [he] at hrun
    cases hrun
  | false =>
    rw [he, if_neg Bool.false_ne_true, clearTable_of_table hd he] at hrun
    by_cases hin : i.layout.checksumOffset + Checksum.fieldLength ≤ (i.withoutTable d).length
    · rw [updateChecksum_of_le (by rwa [layout_withoutTable])] at hrun
      cases hrun
    · rw [updateChecksum_of_lt (by rwa [layout_withoutTable, ← Nat.not_le])] at hrun
      cases hrun
      have hlast : d.stop = i.length := by
        by_contra hnot
        rw [length_withoutTable hd he, base_of_stop_ne hd hnot] at hin
        exact hin h.checksum_le
      rw [length_withoutTable_of_last hd he hlast, Nat.not_le] at hin
      exact .checksum rfl he hlast hin

theorem Inside.refuses_of_error (h : i.Inside) (hd : i.directory = .ok d)
    (hrun : replaceTable table i = .error f j) (hf : f ≠ .aborted) : i.Refuses d table f j := by
  by_cases hnil : table = []
  · subst hnil
    exact h.refuses_nil hd hrun
  cases he : d.isEmpty with
  | true =>
    have htail := tailDirectory_of_isEmpty hd he
    by_cases hnear : align8 i.length < 2 ^ 32
    · rw [narrow_of_lt hnear] at htail
      obtain ⟨hlong, rfl, rfl⟩ := long_of_replaceTable_error hd hnil htail hrun hf
      exact .firstSize hlong he hnear
    · rw [narrow_of_le (Nat.not_lt.1 hnear)] at htail
      rw [replaceTable_of_tail_error hd hnil htail] at hrun
      cases hrun
      exact .place hnil he (Nat.not_lt.1 hnear)
  | false =>
    have htail := tailDirectory_of_table hd he
    by_cases hlast : d.stop = i.length
    · rw [if_pos hlast] at htail
      obtain ⟨hlong, rfl, rfl⟩ := long_of_replaceTable_error hd hnil htail hrun hf
      exact .nextSize hlong he hlast
    · rw [if_neg hlast] at htail
      rw [replaceTable_of_tail_error hd hnil htail] at hrun
      cases hrun
      exact .behind hnil he hlast

theorem Refuses.eq_iff (h : i.Refuses d table f j) (hd : i.directory = .ok d) :
    j = i ↔ table ≠ [] ∧
      if d.isEmpty then 2 ^ 32 ≤ i.length ∧ align8 i.length = i.length else d.stop ≠ i.length := by
  cases h with
  | checksum hnil he hlast hcut =>
    refine ⟨fun hsame => ?_, fun hkept => absurd hnil hkept.1⟩
    have hlength := length_withoutTable_of_last hd he hlast
    have hsize := (CertificateDirectory.isEmpty_eq_false_iff.1 he).2
    rw [hsame, ← hlast, CertificateDirectory.stop] at hlength
    omega
  | place hsome he hfar =>
    rw [he, if_pos rfl]
    constructor
    · intro hsame
      have hlength : align8 i.length = i.length := by rw [← length_padded, hsame]
      exact ⟨hsome, hlength ▸ hfar, hlength⟩
    · rintro ⟨-, -, hlength⟩
      rw [padded, Bytes.aligned, ← length, hlength, length, Bytes.resize_self]
      rfl
  | behind hsome he hlast =>
    rw [he, if_neg Bool.false_ne_true]
    exact ⟨fun _ => ⟨hsome, hlast⟩, fun _ => rfl⟩
  | firstSize hlong he hnear =>
    rw [he, if_pos rfl]
    refine ⟨fun hsame => ?_, fun hkept => ?_⟩
    · have hlength := congrArg length hsame
      have hle := Bytes.le_align8 i.length
      rw [length_withBytes, List.length_append, List.take_of_length_le (length_padded i).le,
        ← length, length_padded] at hlength
      omega
    · have := hkept.2
      omega
  | nextSize hlong he hlast =>
    rw [he, if_neg Bool.false_ne_true]
    refine ⟨fun hsame => ?_, fun hkept => absurd hlast hkept.2⟩
    have hlength := congrArg length hsame
    have hsize := (fits_of_directory hd).2
    have hoffset : d.offset ≤ i.bytes.length := (Nat.le_add_right _ _).trans hlast.le
    rw [length_withBytes, List.length_append, List.length_take_of_le hoffset, ← hlast,
      CertificateDirectory.stop] at hlength
    omega

/-- A table that ends the file behind the stored checksum is replaced by every shorter one than
4 GiB. -/
theorem not_refuses_of_last (he : d.isEmpty = false) (hlast : d.stop = i.length)
    (hbehind : i.layout.checksumOffset + Checksum.fieldLength ≤ d.offset)
    (hsize : table.length < 2 ^ 32) : ¬i.Refuses d table f j := by
  intro hrefuses
  cases hrefuses with
  | checksum _ _ _ hcut => exact absurd hbehind (Nat.not_le.2 hcut)
  | place _ hnone | firstSize _ hnone => exact absurd (he.symm.trans hnone) Bool.false_ne_true
  | behind _ _ hnot => exact hnot hlast
  | nextSize hlong => exact absurd hsize (Nat.not_lt.2 hlong)

theorem Inside.checksum_le_of_replaceTable {w : Option Warning} (h : i.Inside)
    (hd : i.directory = .ok d) (hrun : replaceTable table i = .ok w j) :
    j.layout.checksumOffset + Checksum.fieldLength ≤ j.length := by
  by_cases hnil : table = []
  · subst hnil
    rw [replaceTable_nil hd] at hrun
    cases he : d.isEmpty with
    | true =>
      rw [he] at hrun
      cases hrun
      exact h.checksum_le
    | false =>
      rw [he, if_neg Bool.false_ne_true, clearTable_of_table hd he] at hrun
      cases hupdate : updateChecksum (i.withoutTable d) with
      | error g k =>
        rw [hupdate] at hrun
        cases hrun
      | ok _ k =>
        rw [hupdate] at hrun
        cases hrun
        obtain ⟨hlayout, hlength⟩ := length_of_updateChecksum hupdate
        rw [hlayout, hlength]
        exact (updateChecksum_eq_ok_iff.1 hupdate).1
  · cases htail : tailDirectory i with
    | error g k =>
      rw [replaceTable_of_tail_error hd hnil htail] at hrun
      cases hrun
    | ok tail k =>
      obtain ⟨e, filling, -, rfl⟩ := fills_of_tailDirectory htail
      rw [replaceTable_of_tail hd hnil htail] at hrun
      dsimp only at hrun
      generalize hreplaced : Image.withBytes _ (_ ++ table) = replaced at hrun
      have hlayout : replaced.layout = i.layout := by rw [← hreplaced]; rfl
      cases hnarrow : narrow table.length with
      | error g =>
        rw [hnarrow] at hrun
        cases hrun
      | ok n =>
        rw [hnarrow] at hrun
        dsimp only at hrun
        by_cases hin : replaced.layout.directoryOffset + directoryEntrySize ≤ replaced.length
        · rw [setDirectory_of_le hin] at hrun
          cases hrun
          have hordered : replaced.layout.Ordered := hlayout ▸ h.ordered
          rw [layout_withDirectory, length_withDirectory hin]
          exact (hordered.checksum_le.trans (Nat.le_add_right _ _)).trans hin
        · rw [setDirectory_of_lt (Nat.not_le.1 hin)] at hrun
          cases hrun

end Pe.Image

theorem CertificateTable.ne_aborted_of_encode {list : List Signature} {f : Error}
    (h : encode list = .error f) : f ≠ .aborted := by
  induction list with
  | nil => cases h
  | cons s rest ih =>
    unfold encode at h ih
    rw [List.mapM_cons] at h
    cases hentry : encodeEntry s with
    | error g =>
      rw [hentry] at h
      cases h
      unfold encodeEntry at hentry
      dsimp only at hentry
      split at hentry
      · cases hentry
      · cases hentry
        exact Error.noConfusion
    | ok e =>
      rw [hentry] at h
      cases hrest : rest.mapM encodeEntry with
      | error g =>
        rw [hrest] at h
        cases h
        exact ih (by rw [hrest]; rfl)
      | ok es =>
        rw [hrest] at h
        cases h

namespace SignedImage

variable {s t : SignedImage} {index : Int} {f : Error} {table data : Bytes}
  {d : Pe.CertificateDirectory}

/-- An edit that returns an error leaves list and image as they were. -/
def Atomic {α : Type} (edit : Edit α) (s : SignedImage) : Prop :=
  ∀ f t, edit s = .error f t → f ≠ .aborted → t = s

theorem atomic_insert (index : Int) (extra : Signature) (s : SignedImage) :
    Atomic (insert index extra) s :=
  fun _ _ h _ => (insert_eq_error h).1

theorem remove_of_lt {k : Nat} (hk : k < s.signatures.length) :
    remove k s = match CertificateTable.encode (s.signatures.eraseIdx k) with
      | .error f => .error f ⟨s.image, s.signatures.eraseIdx k⟩
      | .ok table =>
        match Pe.Image.replaceTable table s.image with
        | .ok w j => .ok (s.signatures[k], w) ⟨j, s.signatures.eraseIdx k⟩
        | .error f j => .error f ⟨j, s.signatures.eraseIdx k⟩ := by
  simp only [remove]
  rw [Step.get_bind, position?_eq_some_iff.2 ⟨rfl, hk⟩]
  simp only [List.getElem?_eq_getElem hk]
  rw [Step.modify_bind]
  cases CertificateTable.encode (s.signatures.eraseIdx k) with
  | error f => exact Step.bind_of_error Step.ofExcept_error
  | ok table =>
    rw [Step.bind_of_ok Step.ofExcept_ok]
    dsimp only
    cases hreplace : Pe.Image.replaceTable table s.image with
    | error f j => exact Step.bind_of_error (onImage_eq_error_iff.2 ⟨hreplace, rfl⟩)
    | ok w j => exact Step.bind_of_ok (onImage_eq_ok_iff.2 ⟨hreplace, rfl⟩)

theorem finish_eq (s : SignedImage) :
    finish s = match CertificateTable.encode s.signatures with
      | .error f => .error f s
      | .ok table =>
        match Pe.Image.replaceTable table s.image with
        | .error f j => .error f ⟨j, s.signatures⟩
        | .ok w j =>
          match Pe.Image.updateChecksum j with
          | .ok _ k => .ok w ⟨k, s.signatures⟩
          | .error f k => .error f ⟨k, s.signatures⟩ := by
  simp only [finish]
  rw [Step.get_bind]
  cases CertificateTable.encode s.signatures with
  | error f => exact Step.bind_of_error Step.ofExcept_error
  | ok table =>
    rw [Step.bind_of_ok Step.ofExcept_ok]
    dsimp only
    cases hreplace : Pe.Image.replaceTable table s.image with
    | error f j => exact Step.bind_of_error (onImage_eq_error_iff.2 ⟨hreplace, rfl⟩)
    | ok w j =>
      rw [Step.bind_of_ok (onImage_eq_ok_iff (t := ⟨j, s.signatures⟩).2 ⟨hreplace, rfl⟩)]
      dsimp only
      cases hupdate : Pe.Image.updateChecksum j with
      | error f k => exact Step.bind_of_error (onImage_eq_error_iff.2 ⟨hupdate, rfl⟩)
      | ok _ k => exact Step.bind_of_ok (onImage_eq_ok_iff.2 ⟨hupdate, rfl⟩)

/-- A removal sets the list first, so it is undone by nothing that fails behind that. -/
theorem atomic_remove_iff (h : s.image.Inside) (hd : s.image.directory = .ok d) :
    Atomic (remove index) s ↔ ∀ k : Nat, index = k → k < s.signatures.length →
      ∃ table, CertificateTable.encode (s.signatures.eraseIdx k) = .ok table ∧
        ∀ f j, ¬s.image.Refuses d table f j := by
  constructor
  · rintro hatomic k rfl hk
    have hshorter : ∀ j, (⟨j, s.signatures.eraseIdx k⟩ : SignedImage) ≠ s := by
      intro j hsame
      have hlength := congrArg (fun t => t.signatures.length) hsame
      rw [List.length_eraseIdx_of_lt hk] at hlength
      omega
    have hrun := remove_of_lt hk
    cases htable : CertificateTable.encode (s.signatures.eraseIdx k) with
    | error g =>
      rw [htable] at hrun
      exact absurd (hatomic g _ hrun (CertificateTable.ne_aborted_of_encode htable)) (hshorter _)
    | ok table =>
      refine ⟨table, rfl, ?_⟩
      intro f j hrefuses
      rw [htable] at hrun
      dsimp only at hrun
      rw [hrefuses.replaceTable_eq hd] at hrun
      exact hshorter _ (hatomic f _ hrun hrefuses.ne_aborted)
  · intro htakes f t hrun hf
    cases hposition : position? index s.signatures.length with
    | none =>
      simp only [remove] at hrun
      rw [Step.get_bind, hposition] at hrun
      cases hrun
      rfl
    | some k =>
      obtain ⟨rfl, hk⟩ := position?_eq_some_iff.1 hposition
      obtain ⟨table, htable, hnone⟩ := htakes k rfl hk
      rw [remove_of_lt hk, htable] at hrun
      dsimp only at hrun
      cases hreplace : Pe.Image.replaceTable table s.image with
      | ok w j =>
        rw [hreplace] at hrun
        cases hrun
      | error g j =>
        rw [hreplace] at hrun
        cases hrun
        exact absurd (h.refuses_of_error hd hreplace hf) (hnone _ _)

/-- Finishing changes the image alone, and nothing fails once the table is in place. -/
theorem atomic_finish_iff (h : s.image.Inside) (hd : s.image.directory = .ok d) :
    Atomic finish s ↔ ∀ table f j, CertificateTable.encode s.signatures = .ok table →
      s.image.Refuses d table f j → j = s.image := by
  constructor
  · intro hatomic table f j htable hrefuses
    have hrun := finish_eq s
    rw [htable] at hrun
    dsimp only at hrun
    rw [hrefuses.replaceTable_eq hd] at hrun
    exact congrArg SignedImage.image (hatomic f _ hrun hrefuses.ne_aborted)
  · intro hkept f t hrun hf
    rw [finish_eq] at hrun
    cases htable : CertificateTable.encode s.signatures with
    | error g =>
      rw [htable] at hrun
      cases hrun
      rfl
    | ok table =>
      rw [htable] at hrun
      dsimp only at hrun
      cases hreplace : Pe.Image.replaceTable table s.image with
      | error g j =>
        rw [hreplace] at hrun
        cases hrun
        exact eq_of_image_eq (hkept table _ j htable (h.refuses_of_error hd hreplace hf)) rfl
      | ok w j =>
        rw [hreplace] at hrun
        dsimp only at hrun
        rw [Pe.Image.updateChecksum_of_le (h.checksum_le_of_replaceTable hd hreplace)] at hrun
        cases hrun

/-- Which edits of an image that was taken from a file are atomic, for every list: an insertion
always; a removal where the rest of the list can be written and the image takes its table; and
finishing unless the last table is cleared and the stored checksum with it, a first table finds no
place below 4 GiB in an image still to be filled up, or a table is too long for its entry. -/
theorem atomic_of_parse {i : Pe.Image} (hi : Pe.Image.parse data = .ok i)
    (hd : i.directory = .ok d) (list : List Signature) :
    (∀ index extra, Atomic (insert index extra) ⟨i, list⟩) ∧
    (∀ index, Atomic (remove index) ⟨i, list⟩ ↔ ∀ k : Nat, index = k → k < list.length →
      ∃ table, CertificateTable.encode (list.eraseIdx k) = .ok table ∧
        ∀ f j, ¬i.Refuses d table f j) ∧
    (Atomic finish ⟨i, list⟩ ↔ ∀ table f j, CertificateTable.encode list = .ok table →
      i.Refuses d table f j → table ≠ [] ∧
        if d.isEmpty then 2 ^ 32 ≤ i.length ∧ align8 i.length = i.length
        else d.stop ≠ i.length) := by
  have hinside := Pe.Image.inside_of_parse hi
  refine ⟨fun index extra => atomic_insert index extra _, fun index => ?_, ?_⟩
  · exact atomic_remove_iff hinside hd
  · rw [atomic_finish_iff hinside hd]
    constructor
    · intro hkept table f j htable hrefuses
      exact (hrefuses.eq_iff hd).1 (hkept table f j htable hrefuses)
    · intro hkept table f j htable hrefuses
      exact (hrefuses.eq_iff hd).2 (hkept table f j htable hrefuses)

/-- The table of two least signatures. -/
def pairTable : Bytes := (List.replicate 2
  (Bytes.ofLe 4 24 ++ Bytes.ofLe 2 0x0200 ++ Bytes.ofLe 2 2 ++ Signature.least.der.resize 16)).flatten

/-- An image whose table ends the file, the same with an octet behind the table, and one whose table
begins in front of the stored checksum. -/
theorem atomic_of_parse_pair :
    let last := Pe.Image.least ⟨224, 48⟩ [] pairTable
    let followed := Pe.Image.least ⟨224, 48⟩ [] (pairTable ++ [0])
    let cut := Pe.Image.least ⟨150, 74⟩ [] []
    (last.signatures = .ok [.least, .least] ∧
      (∀ extra, Atomic (insert 2 extra) ⟨last, [.least, .least]⟩) ∧
      Atomic (remove 0) ⟨last, [.least, .least]⟩ ∧ Atomic finish ⟨last, [.least, .least]⟩) ∧
    (followed.signatures = .ok [.least, .least] ∧
      ¬Atomic (remove 0) ⟨followed, [.least, .least]⟩ ∧
      Atomic finish ⟨followed, [.least, .least]⟩) ∧
    ¬Atomic finish ⟨cut, []⟩ := by
  intro last followed cut
  have hparse : Pe.Image.parse last.bytes = .ok last ∧ Pe.Image.parse followed.bytes = .ok followed ∧
      Pe.Image.parse cut.bytes = .ok cut := by decide +kernel
  have hlast := atomic_of_parse hparse.1 (d := ⟨224, 48⟩) (by decide +kernel) [.least, .least]
  have hfollowed :=
    atomic_of_parse hparse.2.1 (d := ⟨224, 48⟩) (by decide +kernel) [.least, .least]
  have hcut := atomic_of_parse hparse.2.2 (d := ⟨150, 74⟩) (by decide +kernel) []
  have htaken : ∀ table f j, table.length < 2 ^ 32 → ¬last.Refuses ⟨224, 48⟩ table f j :=
    fun table f j => Pe.Image.not_refuses_of_last (by decide) (by decide +kernel) (by decide)
  have hrest : CertificateTable.encode [.least] = .ok (pairTable.take 24) := by decide +kernel
  have hpair : CertificateTable.encode [.least, .least] = .ok pairTable := by decide +kernel
  refine ⟨⟨by decide +kernel, hlast.1 2, (hlast.2.1 0).2 ?_, hlast.2.2.2 ?_⟩,
    ⟨by decide +kernel, fun hatomic => ?_, hfollowed.2.2.2 ?_⟩, fun hatomic => ?_⟩
  · intro k hk _
    obtain rfl : k = 0 := by omega
    exact ⟨_, hrest, fun f j => htaken _ f j (by decide +kernel)⟩
  · intro table f j htable hrefuses
    cases hpair.symm.trans htable
    exact absurd hrefuses (htaken _ f j (by decide +kernel))
  · obtain ⟨table, htable, hnone⟩ := (hfollowed.2.1 0).1 hatomic 0 rfl (by decide)
    cases hrest.symm.trans htable
    exact hnone _ _ (.behind (by decide +kernel) (by decide) (by decide +kernel))
  · intro table f j htable _
    cases hpair.symm.trans htable
    exact ⟨by decide +kernel, by decide +kernel⟩
  · have hrefuses : cut.Refuses ⟨150, 74⟩ [] _ _ :=
      .checksum rfl (by decide) (by decide +kernel) (by decide)
    exact (hcut.2.2.1 hatomic [] _ _ rfl hrefuses).1 rfl

end SignedImage

end Authenticode
