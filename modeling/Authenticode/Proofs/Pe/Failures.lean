import Authenticode.Proofs.Pe.Table

/-!
# What a failing edit leaves

An edit that fails keeps what it had done before the failure. Of an image over a base
that is the filling in front of the table at most, and the image is still over the
base. The exception is a table that the directory entry cannot name: one of 4 GiB or
more is put behind the body before its size is found to be too large. Where neither
that nor a place beyond 4 GiB stands against it, an edit does not fail at all.
-/
namespace Authenticode.Pe.Image

open Bytes (AgreeOff)

variable {i j : Image} {l : Layout} {d tail : CertificateDirectory} {base body table t : Bytes}
  {amount : Nat} {f : Error}

theorem Over.exists_updateChecksum (h : i.Over l base table) :
    ∃ j, Image.updateChecksum i = .ok () j := by
  obtain ⟨body, hholds⟩ := h.exists_holds
  have hchecksum := hholds.ordered.checksum_le
  have hentry := hholds.entry_le
  have hlength := hholds.length_eq
  have hin : i.layout.checksumOffset + Checksum.fieldLength ≤ i.length := by
    rw [hholds.layout_eq]
    omega
  exact ⟨_, updateChecksum_of_le hin⟩

theorem Holds.padded (h : i.Holds l body []) : i.padded.Holds l body.aligned [] := by
  obtain ⟨kept, hkept, hbytes⟩ := h.kept
  obtain ⟨d, hd, hempty, htable⟩ := h.entry
  have hentry := h.entry_le
  have hread : i.padded.directory = .ok d := by
    apply (directory_withBytes _).2 hd
    rw [Bytes.aligned_eq_append]
    exact Bytes.slice?_append_left (entry_le_of_directory hd) _
  rw [List.append_nil] at hbytes
  refine ⟨h.layout_eq, h.ordered, hentry.trans (Bytes.length_le_aligned body),
    ⟨kept.aligned, hkept.aligned, ?_⟩, d, hread, hempty, nofun⟩
  rw [List.append_nil, ← hbytes]
  rfl

theorem Over.padded (h : i.Over l base []) : i.padded.Over l base [] := by
  rcases h.2 with hholds | ⟨-, hholds⟩
  · have hpadded := hholds.padded
    rw [Bytes.aligned_aligned] at hpadded
    exact ⟨h.1, .inl hpadded⟩
  · exact ⟨h.1, .inl hholds.padded⟩

theorem Over.aligned_length (h : i.Over l base []) : align8 i.length = base.aligned.length := by
  rcases h.2 with hholds | ⟨-, hholds⟩
  · rw [hholds.length_eq]
    simp [Bytes.align8_align8]
  · rw [hholds.length_eq]
    simp

theorem Over.reserved_eq (h : i.Over l base table) (hd : i.directory = .ok d) :
    d.reserved = table.length := by
  obtain ⟨e, he, hempty⟩ := h.entry
  cases hd.symm.trans he
  by_cases htable : table = []
  · rw [CertificateDirectory.reserved, if_pos (hempty.1 htable), htable]
    rfl
  · have hholds := h.holds htable
    cases hd.symm.trans (hholds.directory_of_table htable)
    exact reserved_of_table (hholds.isEmpty_table htable)

theorem Over.image_reserved (h : i.Over l base table) : i.reserved = .ok table.length := by
  obtain ⟨d, hd, -⟩ := h.entry
  exact Except.map_eq_ok_iff.2 ⟨d, hd, h.reserved_eq hd⟩

theorem Over.length_lt (h : i.Over l base table) : table.length < 2 ^ 32 := by
  by_cases htable : table = []
  · rw [htable]
    exact Nat.two_pow_pos 32
  · exact (h.fits htable).2

theorem Over.le_of_writeTable (h : i.Over l base table) (hwrite : Image.writeTable t i = .ok () j) :
    t.length ≤ table.length := by
  obtain ⟨d, hd, hfits⟩ := le_reserved_of_writeTable hwrite
  rwa [h.reserved_eq hd] at hfits

theorem Over.exists_writeTable (h : i.Over l base table) (hfits : t.length ≤ table.length) :
    ∃ j, Image.writeTable t i = .ok () j := by
  obtain ⟨d, hd, hempty⟩ := h.entry
  rw [← h.reserved_eq hd] at hfits
  refine ⟨_, writeTable_of_le hd hfits ?_⟩
  intro he
  have htable : table ≠ [] := by
    intro hnil
    rw [hempty.1 hnil] at he
    cases he
  have hholds := h.holds htable
  cases hd.symm.trans (hholds.directory_of_table htable)
  exact hholds.stop_eq.le

/-- Where an edit puts its table is found without changing more than the filling. -/
theorem Over.of_tailDirectory (h : i.Over l base table)
    (htail : Image.tailDirectory i = .ok tail j) : j.Over l base table := by
  obtain ⟨d, hd, hempty⟩ := h.entry
  cases he : d.isEmpty with
  | true =>
    obtain rfl := hempty.2 he
    rw [tailDirectory_of_isEmpty hd he] at htail
    cases hnarrow : narrow (align8 i.length) with
    | ok n =>
      rw [hnarrow] at htail
      cases htail
      exact h.padded
    | error g =>
      rw [hnarrow] at htail
      cases htail
  | false =>
    rw [tailDirectory_of_table hd he] at htail
    split at htail
    · cases htail
      exact h
    · cases htail

/-- No place is found only where it would not be below 4 GiB. -/
theorem Over.of_tailDirectory_error (h : i.Over l base table)
    (htail : Image.tailDirectory i = .error f j) :
    table = [] ∧ 2 ^ 32 ≤ base.aligned.length ∧ j.Over l base table := by
  obtain ⟨d, hd, hempty⟩ := h.entry
  by_cases htable : table = []
  · subst htable
    have hlength := h.aligned_length
    rw [tailDirectory_of_isEmpty hd (hempty.1 rfl)] at htail
    by_cases hnarrow : align8 i.length < 2 ^ 32
    · rw [narrow_of_lt hnarrow] at htail
      cases htail
    · rw [narrow_of_le (Nat.not_lt.1 hnarrow)] at htail
      cases htail
      exact ⟨rfl, hlength ▸ Nat.not_lt.1 hnarrow, h.padded⟩
  · have hholds := h.holds htable
    rw [tailDirectory_of_table (hholds.directory_of_table htable) (hholds.isEmpty_table htable),
      if_pos hholds.stop_eq] at htail
    cases htail

theorem Over.of_growTable_error (h : i.Over l base table)
    (hgrow : Image.growTable amount i = .error f j) :
    j.Over l base table ∨ 2 ^ 32 ≤ table.length + amount ∧
      j.length = base.aligned.length + (table.length + amount) := by
  by_cases hzero : amount = 0
  · rw [hzero, growTable_zero] at hgrow
    cases hgrow
  cases htail : Image.tailDirectory i with
  | error g k =>
    rw [growTable_of_tail_error hzero htail] at hgrow
    cases hgrow
    obtain ⟨-, -, hover⟩ := h.of_tailDirectory_error htail
    exact .inl hover
  | ok tail k =>
    obtain ⟨hlayout, -, rfl, -, kept, hkept, hbytes⟩ := h.tailDirectory htail
    by_cases hlimit : base.aligned.length + (table.length + amount) ≤ maxLength
    · rw [growTable_of_tail hzero htail hlimit] at hgrow
      by_cases hnarrow : table.length + amount < 2 ^ 32
      · have hentry : l.directoryOffset + directoryEntrySize ≤ base.aligned.length :=
          h.1.trans (Bytes.length_le_aligned _)
        rw [narrow_of_lt hnarrow] at hgrow
        dsimp only at hgrow
        rw [setDirectory_of_le (by
          rw [layout_withBytes, length_withBytes, hlayout, Bytes.length_resize]
          omega)] at hgrow
        cases hgrow
      · rw [narrow_of_le (Nat.not_lt.1 hnarrow)] at hgrow
        cases hgrow
        exact .inr ⟨Nat.not_lt.1 hnarrow, Bytes.length_resize _ _⟩
    · rw [growTable_of_limit hzero htail (Nat.not_le.1 hlimit)] at hgrow
      cases hgrow
      exact .inl (h.of_tailDirectory htail)

theorem clearTable_eq_replaceTable (hd : i.directory = .ok d) :
    Image.clearTable i = Image.replaceTable [] i := by
  rw [replaceTable_nil hd]
  split
  · next he => exact clearTable_of_isEmpty hd he
  · rfl

theorem Over.exists_replaceTable_nil (h : i.Over l base table) :
    ∃ w j, Image.replaceTable [] i = .ok w j := by
  obtain ⟨d, hd, hempty⟩ := h.entry
  rw [replaceTable_nil hd]
  cases he : d.isEmpty with
  | true => exact ⟨none, i, rfl⟩
  | false =>
    have htable : table ≠ [] := by
      intro hnil
      rw [hempty.1 hnil] at he
      cases he
    have hholds := h.holds htable
    have hbase := hholds.base_eq
    have hin : i.layout.directoryOffset + directoryEntrySize ≤ i.base.length := by
      rw [hbase.1, hholds.layout_eq]
      exact hholds.entry_le
    have hordered : i.layout.Ordered := hholds.layout_eq ▸ hholds.ordered
    have hcut := holds_withoutTable hordered hd he hin
    obtain ⟨j, hupdate⟩ := Over.exists_updateChecksum ⟨hin, .inr ⟨rfl, hcut⟩⟩
    rw [if_neg Bool.false_ne_true, clearTable_of_table hd he, hupdate]
    exact ⟨_, _, rfl⟩

/-- Replacing fails only where the directory entry cannot name the table, for its place or for its
size. -/
theorem Over.of_replaceTable_error (h : i.Over l base table)
    (hreplace : Image.replaceTable t i = .error f j) :
    t ≠ [] ∧ (table = [] ∧ 2 ^ 32 ≤ base.aligned.length ∧ j.Over l base table ∨
      2 ^ 32 ≤ t.length ∧ j.length = base.aligned.length + t.length) := by
  by_cases ht : t = []
  · subst ht
    obtain ⟨w, k, hnil⟩ := h.exists_replaceTable_nil
    rw [hnil] at hreplace
    cases hreplace
  refine ⟨ht, ?_⟩
  obtain ⟨d, hd, -⟩ := h.entry
  cases htail : Image.tailDirectory i with
  | error g k =>
    rw [replaceTable_of_tail_error hd ht htail] at hreplace
    cases hreplace
    exact .inl (h.of_tailDirectory_error htail)
  | ok tail k =>
    obtain ⟨hlayout, -, rfl, -, kept, hkept, hbytes⟩ := h.tailDirectory htail
    have hlength : (k.bytes.take base.aligned.length ++ t).length
        = base.aligned.length + t.length := by
      rw [hbytes, ← hkept.1, List.take_left, List.length_append]
    rw [replaceTable_of_tail hd ht htail] at hreplace
    by_cases hnarrow : t.length < 2 ^ 32
    · have hentry : l.directoryOffset + directoryEntrySize ≤ base.aligned.length :=
        h.1.trans (Bytes.length_le_aligned _)
      rw [narrow_of_lt hnarrow] at hreplace
      dsimp only at hreplace
      rw [setDirectory_of_le (by
        rw [layout_withBytes, length_withBytes, hlayout, hlength]
        omega)] at hreplace
      cases hreplace
    · rw [narrow_of_le (Nat.not_lt.1 hnarrow)] at hreplace
      cases hreplace
      exact .inr ⟨Nat.not_lt.1 hnarrow, hlength⟩

end Authenticode.Pe.Image
