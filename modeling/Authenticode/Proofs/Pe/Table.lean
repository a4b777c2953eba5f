import Authenticode.Proofs.Pe.Editing
import Authenticode.Proofs.Pe.Reading

/-!
# An image as a body and its table

Between two edits an image is a body with a certificate table behind it. The body
is what the file was without its table, filled up to the alignment of a table once
there was one, and it differs from that in the two rewritten fields at most. Each
edit that succeeds keeps the body and exchanges the table, so after any number of
edits the octets are known from the table alone.
-/
namespace Authenticode.Pe.Image

open Bytes (AgreeOff)

/-- The octets of an image without a certificate table that ends the file. -/
def base (i : Image) : Bytes :=
  match i.directory with
  | .ok d => if d.isEmpty = false ∧ d.stop = i.length then i.bytes.take d.offset else i.bytes
  | .error _ => i.bytes

/-- The octets are a body with a table behind it, up to what signing rewrites in the body, and the
directory entry names that table. -/
structure Holds (i : Image) (l : Layout) (body table : Bytes) : Prop where
  layout_eq : i.layout = l
  ordered : l.Ordered
  entry_le : l.directoryOffset + directoryEntrySize ≤ body.length
  kept : ∃ kept, AgreeOff l.Rewritten kept body ∧ i.bytes = kept ++ table
  entry : ∃ d, i.directory = .ok d ∧ (table = [] → d.isEmpty = true) ∧
    (table ≠ [] → d = ⟨body.length, table.length⟩)

/-- The body is a base, filled up to the alignment of a table; the filling may be missing as long
as there is no table. -/
def Over (i : Image) (l : Layout) (base table : Bytes) : Prop :=
  l.directoryOffset + directoryEntrySize ≤ base.length ∧
    (i.Holds l base.aligned table ∨ table = [] ∧ i.Holds l base [])

variable {i j : Image} {l : Layout} {d tail : CertificateDirectory} {base body kept table : Bytes}
  {amount : Nat} {w : Option Warning}

theorem base_of_isEmpty (hd : i.directory = .ok d) (he : d.isEmpty = true) : i.base = i.bytes := by
  rw [Image.base, hd]
  exact if_neg fun h => Bool.false_ne_true (h.1.symm.trans he)

theorem base_of_stop_eq (hd : i.directory = .ok d) (he : d.isEmpty = false)
    (hstop : d.stop = i.length) : i.base = i.bytes.take d.offset := by
  rw [Image.base, hd]
  exact if_pos ⟨he, hstop⟩

theorem base_of_stop_ne (hd : i.directory = .ok d) (hstop : d.stop ≠ i.length) :
    i.base = i.bytes := by
  rw [Image.base, hd]
  exact if_neg fun h => hstop h.2

namespace Holds

theorem length_eq (h : i.Holds l body table) : i.length = body.length + table.length := by
  obtain ⟨kept, hkept, hbytes⟩ := h.kept
  rw [length, hbytes, List.length_append, hkept.1]

theorem stop_eq (h : i.Holds l body table) :
    (⟨body.length, table.length⟩ : CertificateDirectory).stop = i.length := h.length_eq.symm

theorem isEmpty_table (h : i.Holds l body table) (htable : table ≠ []) :
    (⟨body.length, table.length⟩ : CertificateDirectory).isEmpty = false := by
  have hentry := h.entry_le
  have hlength := List.length_pos_iff.2 htable
  refine CertificateDirectory.isEmpty_eq_false_iff.2 ⟨?_, hlength⟩
  unfold directoryEntrySize at hentry
  dsimp only
  omega

theorem directory_of_table (h : i.Holds l body table) (htable : table ≠ []) :
    i.directory = .ok ⟨body.length, table.length⟩ := by
  obtain ⟨d, hd, -, hentry⟩ := h.entry
  rw [hd, hentry htable]

theorem table_eq (h : i.Holds l body table) (htable : table ≠ []) : i.table = .ok (some table) := by
  obtain ⟨kept, hkept, hbytes⟩ := h.kept
  have hslice : i.bytes.slice? body.length (body.length + table.length) = some table := by
    rw [hbytes, ← hkept.1]
    exact Bytes.slice?_append_right kept table
  have hempty := h.isEmpty_table htable
  unfold Image.table
  rw [h.directory_of_table htable]
  refine Except.bind_eq_ok_iff.2 ⟨_, rfl, ?_⟩
  rw [hempty, if_neg Bool.false_ne_true, CertificateDirectory.stop, hslice]
  rfl

theorem congr {body' : Bytes} (h : i.Holds l body table)
    (hbody : AgreeOff l.Rewritten body body') : i.Holds l body' table := by
  obtain ⟨kept, hkept, hbytes⟩ := h.kept
  obtain ⟨d, hd, hempty, htable⟩ := h.entry
  refine ⟨h.layout_eq, h.ordered, hbody.1 ▸ h.entry_le, ⟨kept, hkept.trans hbody, hbytes⟩,
    d, hd, hempty, ?_⟩
  intro hne
  rw [htable hne, hbody.1]

theorem base_eq (h : i.Holds l body table) : AgreeOff l.Rewritten i.base body := by
  obtain ⟨kept, hkept, hbytes⟩ := h.kept
  by_cases htable : table = []
  · obtain ⟨d, hd, hempty, -⟩ := h.entry
    rw [base_of_isEmpty hd (hempty htable), hbytes, htable, List.append_nil]
    exact hkept
  · rw [base_of_stop_eq (h.directory_of_table htable) (h.isEmpty_table htable) h.stop_eq,
      hbytes, ← hkept.1, List.take_left]
    exact hkept

end Holds

theorem Over.exists_holds (h : i.Over l base table) : ∃ body, i.Holds l body table := by
  rcases h.2 with hholds | ⟨rfl, hholds⟩
  · exact ⟨_, hholds⟩
  · exact ⟨_, hholds⟩

theorem Over.layout_eq (h : i.Over l base table) : i.layout = l := by
  obtain ⟨_, hholds⟩ := h.exists_holds
  exact hholds.layout_eq

/-- A table always stands behind the filled base. -/
theorem Over.holds (h : i.Over l base table) (htable : table ≠ []) :
    i.Holds l base.aligned table := by
  rcases h.2 with hholds | ⟨hnil, -⟩
  · exact hholds
  · exact absurd hnil htable

theorem slice?_of_kept (hentry : l.directoryOffset + directoryEntrySize ≤ body.length)
    (hkept : AgreeOff l.Rewritten kept body) (t : Bytes) :
    (kept ++ t).slice? l.directoryOffset (l.directoryOffset + directoryEntrySize)
      = kept.slice? l.directoryOffset (l.directoryOffset + directoryEntrySize) := by
  have hentry' : l.directoryOffset + directoryEntrySize ≤ kept.length := hkept.1 ▸ hentry
  exact Bytes.slice?_append_left hentry' t

theorem holds_withDirectory (hlayout : i.layout = l) (hordered : l.Ordered)
    (hentry : l.directoryOffset + directoryEntrySize ≤ body.length)
    (hkept : AgreeOff l.Rewritten kept body) (hbytes : i.bytes = kept ++ table)
    (hfits : d.Fits) (hempty : table = [] → d.isEmpty = true)
    (htable : table ≠ [] → d = ⟨body.length, table.length⟩) :
    (i.withDirectory d).Holds l body table := by
  have hentry' : l.directoryOffset + d.toBytes.length ≤ kept.length := by
    rw [CertificateDirectory.length_toBytes, hkept.1]
    exact hentry
  have hin : i.layout.directoryOffset + directoryEntrySize ≤ i.length := by
    rw [hlayout, length, hbytes, List.length_append, hkept.1]
    omega
  refine ⟨hlayout, hordered, hentry, ⟨kept.overwrite l.directoryOffset d.toBytes, ?_, ?_⟩,
    ⟨d, directory_withDirectory hin hfits, hempty, htable⟩⟩
  · refine AgreeOff.trans ?_ hkept
    apply (Bytes.agreeOff_overwrite hentry').mono
    intro k hk
    right
    rwa [CertificateDirectory.length_toBytes] at hk
  · rw [withDirectory, bytes_withBytes, hbytes, hlayout, Bytes.overwrite_append hentry']

theorem Holds.updateChecksum (h : i.Holds l body table)
    (hupdate : updateChecksum i = .ok () j) : j.Holds l body table := by
  obtain ⟨kept, hkept, hbytes⟩ := h.kept
  obtain ⟨d, hd, hentry⟩ := h.entry
  have hchecksum := h.ordered.checksum_le
  have hle := h.entry_le
  have hlen := h.length_eq
  rw [updateChecksum_of_le (by rw [h.layout_eq]; omega), h.layout_eq] at hupdate
  cases hupdate
  set sum := Bytes.ofLe Checksum.fieldLength (Checksum.compute i.bytes l.checksumOffset)
  have hsum : sum.length = Checksum.fieldLength := Bytes.length_ofLe _ _
  have hin : l.checksumOffset + sum.length ≤ kept.length := by
    rw [hsum, hkept.1]
    omega
  have hwritten : AgreeOff (Bytes.Within l.checksumOffset Checksum.fieldLength)
      (kept.overwrite l.checksumOffset sum) kept := hsum ▸ Bytes.agreeOff_overwrite hin
  have hkept' : AgreeOff l.Rewritten (kept.overwrite l.checksumOffset sum) body :=
    (hwritten.mono fun k hk => .inl hk).trans hkept
  have hbytes' : i.bytes.overwrite l.checksumOffset sum
      = kept.overwrite l.checksumOffset sum ++ table := by
    rw [hbytes, Bytes.overwrite_append hin]
  refine ⟨h.layout_eq, h.ordered, hle, ⟨_, hkept', hbytes'⟩, d, ?_, hentry⟩
  refine (directory_withBytes ?_).2 hd
  rw [h.layout_eq, hbytes', hbytes, slice?_of_kept hle hkept', slice?_of_kept hle hkept]
  refine hwritten.slice?_eq ?_
  intro k hk _ hwithin
  have := hwithin.2
  omega

theorem length_withoutTable (hd : i.directory = .ok d) (he : d.isEmpty = false) :
    (i.withoutTable d).length = i.base.length := by
  have hlen : (i.withDirectory .none).bytes.length = i.bytes.length :=
    length_withDirectory (entry_le_of_directory hd) _
  unfold withoutTable
  by_cases hstop : d.stop = i.length
  · rw [if_pos hstop, base_of_stop_eq hd he hstop, length_withBytes, List.length_take, hlen,
      List.length_take]
  · rw [if_neg hstop, base_of_stop_ne hd hstop]
    exact hlen

theorem holds_withoutTable (hordered : i.layout.Ordered) (hd : i.directory = .ok d)
    (he : d.isEmpty = false)
    (hin : i.layout.directoryOffset + directoryEntrySize ≤ i.base.length) :
    (i.withoutTable d).Holds i.layout i.base [] := by
  have hentry := entry_le_of_directory hd
  have hwritten : AgreeOff i.layout.Rewritten (i.withDirectory .none).bytes i.bytes :=
    (agreeOff_withDirectory hentry .none).mono fun k hk => .inr hk
  have hcleared : (i.withDirectory .none).directory = .ok .none :=
    directory_withDirectory hentry ⟨by decide, by decide⟩
  by_cases hstop : d.stop = i.length
  · have hcut : i.withoutTable d =
        (i.withDirectory .none).withBytes ((i.withDirectory .none).bytes.take d.offset) :=
      if_pos hstop
    have hkept := hwritten.take d.offset
    rw [base_of_stop_eq hd he hstop] at hin ⊢
    have hoffset := hin.trans (List.length_take_le _ _)
    rw [hcut]
    refine ⟨rfl, hordered, hin, ⟨_, hkept, (List.append_nil _).symm⟩, .none,
      (directory_withBytes ?_).2 hcleared, fun _ => rfl, nofun⟩
    refine Bytes.slice?_congr (hkept.1 ▸ hin) (hwritten.1 ▸ hentry) ?_
    intro k _ hk
    exact List.getElem?_take_of_lt (hk.trans_le hoffset)
  · have hkeep : i.withoutTable d = i.withDirectory .none := if_neg hstop
    rw [base_of_stop_ne hd hstop] at hin ⊢
    rw [hkeep]
    exact ⟨rfl, hordered, hin, ⟨_, hwritten, (List.append_nil _).symm⟩, .none, hcleared,
      fun _ => rfl, nofun⟩

/-- Clearing the table of an image leaves its base, if the directory entry is left at all. -/
theorem holds_of_clearTable (hordered : i.layout.Ordered) (hclear : clearTable i = .ok w j) :
    j.length = i.base.length ∧ j.layout = i.layout ∧
      (i.layout.directoryOffset + directoryEntrySize ≤ i.base.length →
        j.Holds i.layout i.base []) := by
  obtain ⟨d, hd⟩ := exists_directory_of_clearTable hclear
  cases he : d.isEmpty with
  | true =>
    rw [clearTable_of_isEmpty hd he] at hclear
    cases hclear
    rw [base_of_isEmpty hd he]
    exact ⟨rfl, rfl, fun hin => ⟨rfl, hordered, hin,
      ⟨_, .refl _ _, (List.append_nil _).symm⟩, d, hd, fun _ => he, nofun⟩⟩
  | false =>
    rw [clearTable_of_table hd he] at hclear
    cases hupdate : Image.updateChecksum (i.withoutTable d) with
    | error f k =>
      rw [hupdate] at hclear
      cases hclear
    | ok _ k =>
      rw [hupdate] at hclear
      cases hclear
      obtain ⟨hlayout, hlen⟩ := length_of_updateChecksum hupdate
      refine ⟨hlen.trans (length_withoutTable hd he), hlayout.trans (layout_withoutTable i d),
        ?_⟩
      intro hin
      exact (holds_withoutTable hordered hd he hin).updateChecksum hupdate

theorem over_of_clearTable (hordered : i.layout.Ordered) (hclear : clearTable i = .ok w j)
    (hd : j.directory = .ok d) : j.Over i.layout i.base [] := by
  obtain ⟨hlen, hlayout, hholds⟩ := holds_of_clearTable hordered hclear
  have hin := entry_le_of_directory hd
  rw [hlen, hlayout] at hin
  exact ⟨hin, .inr ⟨rfl, hholds hin⟩⟩

theorem over_of_parse {data : Bytes} (hparse : parse data = .ok i) (hd : i.directory = .ok d)
    (he : d.isEmpty = true) : i.Over i.layout data [] := by
  obtain ⟨hlayout, hbytes, -⟩ := parse_eq_ok_iff.1 hparse
  have hover := over_of_clearTable (Layout.ordered_of_parse hlayout)
    (clearTable_of_isEmpty hd he) hd
  rwa [base_of_isEmpty hd he, hbytes] at hover

/-- Where an edit puts its table: behind the body, in place of the table that ends the image. -/
theorem Over.tailDirectory (h : i.Over l base table) (htail : tailDirectory i = .ok tail j) :
    j.layout = l ∧ l.Ordered ∧ tail = ⟨base.aligned.length, table.length⟩ ∧ tail.offset < 2 ^ 32 ∧
      ∃ kept, AgreeOff l.Rewritten kept base.aligned ∧ j.bytes = kept ++ table := by
  obtain ⟨d, hd⟩ := exists_directory_of_tailDirectory htail
  by_cases htable : table = []
  · subst htable
    obtain ⟨body, hbody, hholds⟩ : ∃ body : Bytes, body.aligned = base.aligned ∧
        i.Holds l body [] := by
      rcases h.2 with hholds | ⟨-, hholds⟩
      · exact ⟨_, Bytes.aligned_aligned _, hholds⟩
      · exact ⟨_, rfl, hholds⟩
    obtain ⟨e, he, hempty, -⟩ := hholds.entry
    obtain ⟨kept, hkept, hbytes⟩ := hholds.kept
    rw [List.append_nil] at hbytes
    have hlen : align8 i.length = base.aligned.length := by
      rw [← hbody, Bytes.length_aligned, hholds.length_eq, List.length_nil, Nat.add_zero]
    rw [tailDirectory_of_isEmpty he (hempty rfl)] at htail
    by_cases hnarrow : align8 i.length < 2 ^ 32
    · rw [narrow_of_lt hnarrow] at htail
      cases htail
      refine ⟨hholds.layout_eq, hholds.ordered, by rw [hlen]; rfl, hnarrow, i.bytes.aligned, ?_,
        (List.append_nil _).symm⟩
      rw [hbytes, ← hbody]
      exact hkept.aligned
    · rw [narrow_of_le (Nat.not_lt.1 hnarrow)] at htail
      cases htail
  · have hholds := h.holds htable
    have hdirectory := hholds.directory_of_table htable
    rw [tailDirectory_of_table hdirectory (hholds.isEmpty_table htable),
      if_pos hholds.stop_eq] at htail
    cases htail
    exact ⟨hholds.layout_eq, hholds.ordered, rfl, (fits_of_directory hdirectory).1, hholds.kept⟩

theorem Over.growTable (h : i.Over l base table) (hgrow : growTable amount i = .ok () j) :
    j.Over l base (table ++ Bytes.zeros amount) := by
  by_cases hzero : amount = 0
  · rw [hzero, growTable_zero] at hgrow
    cases hgrow
    simpa [hzero, Bytes.zeros] using h
  cases htail : Image.tailDirectory i with
  | error f k =>
    rw [growTable_of_tail_error hzero htail] at hgrow
    cases hgrow
  | ok tail k =>
    obtain ⟨hlayout, hordered, rfl, hoffset, kept, hkept, hbytes⟩ := h.tailDirectory htail
    have hentry : l.directoryOffset + directoryEntrySize ≤ base.aligned.length :=
      h.1.trans (Bytes.length_le_aligned _)
    rw [growTable_of_tail hzero htail (le_maxLength_of_growTable hzero htail hgrow)] at hgrow
    dsimp only at hgrow
    by_cases hnarrow : table.length + amount < 2 ^ 32
    · rw [narrow_of_lt hnarrow] at hgrow
      have hgrown : k.bytes.resize (base.aligned.length + (table.length + amount))
          = kept ++ (table ++ Bytes.zeros amount) := by
        rw [hbytes, Bytes.resize_of_le (by rw [List.length_append, hkept.1]; omega),
          List.append_assoc, List.length_append, hkept.1]
        congr 3
        omega
      have hlen : (table ++ Bytes.zeros amount).length = table.length + amount := by simp
      rw [hgrown] at hgrow
      dsimp only at hgrow
      rw [setDirectory_of_le (by
        rw [layout_withBytes, length_withBytes, hlayout, List.length_append, hkept.1]
        omega)] at hgrow
      cases hgrow
      refine ⟨h.1, .inl ?_⟩
      refine holds_withDirectory hlayout hordered hentry hkept rfl ⟨hoffset, hnarrow⟩ ?_ ?_
      · intro hnil
        rw [hnil, List.length_nil] at hlen
        omega
      · intro _
        rw [hlen]
    · rw [narrow_of_le (Nat.not_lt.1 hnarrow)] at hgrow
      cases hgrow

theorem Over.updateChecksum (h : i.Over l base table) (hupdate : updateChecksum i = .ok () j) :
    j.Over l base table := by
  refine ⟨h.1, ?_⟩
  rcases h.2 with hholds | ⟨rfl, hholds⟩
  · exact .inl (hholds.updateChecksum hupdate)
  · exact .inr ⟨rfl, hholds.updateChecksum hupdate⟩

theorem Over.entry (h : i.Over l base table) :
    ∃ d, i.directory = .ok d ∧ (table = [] ↔ d.isEmpty = true) := by
  rcases h.2 with hholds | ⟨rfl, hholds⟩
  · obtain ⟨d, hd, hempty, htable⟩ := hholds.entry
    refine ⟨d, hd, hempty, ?_⟩
    intro he
    by_contra hne
    rw [htable hne, hholds.isEmpty_table hne] at he
    cases he
  · obtain ⟨d, hd, hempty, -⟩ := hholds.entry
    exact ⟨d, hd, hempty, fun _ => rfl⟩

theorem Over.writeTable {t : Bytes} (h : i.Over l base table)
    (hwrite : writeTable t i = .ok () j) : j.Over l base (t.resize table.length) := by
  obtain ⟨d, hd, hempty⟩ := h.entry
  by_cases hfits : t.length ≤ d.reserved
  · by_cases htable : table = []
    · have he := hempty.1 htable
      have hin : d.isEmpty = false → d.stop ≤ i.length := by
        intro hnone
        rw [he] at hnone
        cases hnone
      rw [writeTable_of_le hd hfits hin, he, if_pos rfl] at hwrite
      cases hwrite
      simpa [htable, Bytes.resize, Bytes.zeros] using h
    · have hholds := h.holds htable
      cases hd.symm.trans (hholds.directory_of_table htable)
      obtain ⟨kept, hkept, hbytes⟩ := hholds.kept
      rw [writeTable_of_le hd hfits fun _ => hholds.stop_eq.le, hholds.isEmpty_table htable,
        if_neg Bool.false_ne_true] at hwrite
      cases hwrite
      have hlen : (t.resize table.length).length = table.length := Bytes.length_resize _ _
      have hwritten : i.bytes.overwrite base.aligned.length (t.resize table.length)
          = kept ++ t.resize table.length := by
        rw [hbytes, Bytes.overwrite, ← hkept.1, hlen, List.take_left,
          List.drop_of_length_le (by rw [List.length_append]), List.append_nil]
      refine ⟨h.1, .inl ⟨hholds.layout_eq, hholds.ordered, hholds.entry_le,
        ⟨kept, hkept, hwritten⟩, _, (directory_withBytes ?_).2 hd, ?_, ?_⟩⟩
      · rw [hwritten, hbytes, hholds.layout_eq, slice?_of_kept hholds.entry_le hkept,
          slice?_of_kept hholds.entry_le hkept]
      · intro hnil
        rw [hnil, List.length_nil] at hlen
        exact absurd (List.length_eq_zero_iff.1 hlen.symm) htable
      · intro _
        rw [hlen]
  · rw [writeTable_of_lt hd (Nat.not_le.1 hfits)] at hwrite
    cases hwrite

theorem Over.replaceTable {t : Bytes} (h : i.Over l base table)
    (hreplace : replaceTable t i = .ok w j) : j.Over l base t := by
  obtain ⟨d, hd, hempty⟩ := h.entry
  by_cases ht : t = []
  · subst ht
    rw [replaceTable_nil hd] at hreplace
    by_cases htable : table = []
    · rw [if_pos (hempty.1 htable)] at hreplace
      cases hreplace
      exact htable ▸ h
    · have hholds := h.holds htable
      have he : d.isEmpty = false := by
        cases he : d.isEmpty with
        | false => rfl
        | true => exact absurd (hempty.2 he) htable
      rw [if_neg (by rw [he]; exact Bool.false_ne_true)] at hreplace
      have hbase := hholds.base_eq
      have hordered : i.layout.Ordered := hholds.layout_eq ▸ hholds.ordered
      obtain ⟨-, -, hcleared⟩ := holds_of_clearTable hordered hreplace
      rw [hholds.layout_eq] at hcleared
      exact ⟨h.1, .inl ((hcleared (hbase.1 ▸ hholds.entry_le)).congr hbase)⟩
  · cases htail : Image.tailDirectory i with
    | error f k =>
      rw [replaceTable_of_tail_error hd ht htail] at hreplace
      cases hreplace
    | ok tail k =>
      obtain ⟨hlayout, hordered, rfl, hoffset, kept, hkept, hbytes⟩ := h.tailDirectory htail
      have hentry : l.directoryOffset + directoryEntrySize ≤ base.aligned.length :=
        h.1.trans (Bytes.length_le_aligned _)
      rw [replaceTable_of_tail hd ht htail] at hreplace
      dsimp only at hreplace
      rw [hbytes, ← hkept.1, List.take_left] at hreplace
      by_cases hnarrow : t.length < 2 ^ 32
      · rw [narrow_of_lt hnarrow] at hreplace
        dsimp only at hreplace
        rw [setDirectory_of_le (by
          rw [layout_withBytes, length_withBytes, hlayout, List.length_append, hkept.1]
          omega)] at hreplace
        cases hreplace
        refine ⟨h.1, .inl ?_⟩
        refine holds_withDirectory hlayout hordered hentry hkept rfl
          ⟨by rw [hkept.1]; exact hoffset, hnarrow⟩ (fun hnil => absurd hnil ht) ?_
        intro _
        rw [hkept.1]
      · rw [narrow_of_le (Nat.not_lt.1 hnarrow)] at hreplace
        cases hreplace

/-- A base filled up to the alignment of a table, with the table behind it and its entry stored. -/
def normalForm (l : Layout) (base table : Bytes) : Bytes :=
  base.aligned.overwrite l.directoryOffset
    (CertificateDirectory.toBytes ⟨base.aligned.length, table.length⟩) ++ table

/-- What is stored in the directory entry is all that an image over a base adds to it, beside the
table and the checksum. -/
theorem Over.normalForm (h : i.Over l base table) (htable : table ≠ []) :
    AgreeOff (Bytes.Within l.checksumOffset Checksum.fieldLength) i.bytes
      (normalForm l base table) := by
  have hholds := h.holds htable
  obtain ⟨kept, hkept, hbytes⟩ := hholds.kept
  have hread := (directory_eq_ok_iff.1 (hholds.directory_of_table htable)).2
  set entry := CertificateDirectory.toBytes ⟨base.aligned.length, table.length⟩
  have hlen : entry.length = directoryEntrySize := CertificateDirectory.length_toBytes _
  rw [hholds.layout_eq, hbytes, slice?_of_kept hholds.entry_le hkept, ← hlen] at hread
  rw [hbytes, ← Bytes.overwrite_slice? hread]
  refine (AgreeOff.overwrite (hlen ▸ hholds.entry_le) ?_).append table
  exact hkept.mono fun k hk => by rwa [hlen]

theorem Over.fits (h : i.Over l base table) (htable : table ≠ []) :
    (⟨base.aligned.length, table.length⟩ : CertificateDirectory).Fits := by
  have hholds := h.holds htable
  exact fits_of_directory (hholds.directory_of_table htable)

theorem normalForm_congr {base' : Bytes}
    (hentry : l.directoryOffset + directoryEntrySize ≤ base'.aligned.length)
    (h : AgreeOff l.Rewritten base.aligned base'.aligned) (table : Bytes) :
    AgreeOff (Bytes.Within l.checksumOffset Checksum.fieldLength)
      (normalForm l base table) (normalForm l base' table) := by
  unfold Image.normalForm
  rw [h.1]
  set entry := CertificateDirectory.toBytes ⟨base'.aligned.length, table.length⟩
  have hlen : entry.length = directoryEntrySize := CertificateDirectory.length_toBytes _
  refine (AgreeOff.overwrite (hlen ▸ hentry) ?_).append table
  exact h.mono fun k hk => by rwa [hlen]

theorem base_prefix (i : Image) : i.base <+: i.bytes := by
  unfold Image.base
  split
  · split
    · exact List.take_prefix _ _
    · exact List.prefix_rfl
  · exact List.prefix_rfl

theorem Over.agree {data : Bytes} (h : i.Over l base table) (hdata : base <+: data) :
    l.Agree base.length data i.bytes := by
  obtain ⟨behind, rfl⟩ := hdata
  obtain ⟨body, filling, hbody, hholds⟩ : ∃ body filling : Bytes, body = base ++ filling ∧
      ∃ t, i.Holds l body t := by
    rcases h.2 with hholds | ⟨-, hholds⟩
    · exact ⟨_, _, Bytes.aligned_eq_append base, _, hholds⟩
    · exact ⟨base, [], (List.append_nil _).symm, _, hholds⟩
  obtain ⟨t, ht⟩ := hholds
  obtain ⟨kept, hkept, hbytes⟩ := ht.kept
  have hlen : base.length ≤ kept.length := by
    rw [hkept.1, hbody, List.length_append]
    omega
  refine ⟨by simp, by rw [hbytes, List.length_append]; omega, ?_⟩
  intro k hk hr
  rw [hbytes, List.getElem?_append_left hk, List.getElem?_append_left (hk.trans_le hlen),
    hkept.2 k hr, hbody, List.getElem?_append_left hk]

theorem Over.base_aligned (h : i.Over l base table) :
    AgreeOff l.Rewritten i.base.aligned base.aligned := by
  rcases h.2 with hholds | ⟨-, hholds⟩
  · have haligned := hholds.base_eq.aligned
    rwa [Bytes.aligned_aligned] at haligned
  · exact hholds.base_eq.aligned

/-- The same octets with the fields at the same offsets. -/
structure SameFields (i j : Image) : Prop where
  bytes_eq : j.bytes = i.bytes
  layout_eq : j.layout = { i.layout with sections := j.layout.sections }

theorem SameFields.directory_eq (h : i.SameFields j) : j.directory = i.directory := by
  unfold directory
  rw [h.bytes_eq, h.layout_eq]

theorem SameFields.base_eq (h : i.SameFields j) : j.base = i.base := by
  unfold Image.base
  rw [h.directory_eq, length, length, h.bytes_eq]

theorem SameFields.holds (h : i.SameFields j) (hholds : i.Holds l body table) :
    j.Holds j.layout body table := by
  obtain ⟨hlayout, hordered, hentry, hkept, d, hd, hempty, htable⟩ := hholds
  have hsame := h.layout_eq
  rw [hlayout] at hsame
  have hfields : j.layout.Rewritten = l.Rewritten := by
    rw [hsame]
    rfl
  refine ⟨rfl, ?_, ?_, ?_, d, h.directory_eq.trans hd, hempty, htable⟩
  · rw [hsame]
    exact ⟨hordered.checksum_le, hordered.entry_le⟩
  · rw [hsame]
    exact hentry
  · rw [hfields, h.bytes_eq]
    exact hkept

theorem SameFields.over (h : i.SameFields j) (hover : i.Over l base table) :
    j.Over j.layout base table := by
  obtain ⟨hentry, hbody⟩ := hover
  rcases hbody with hholds | ⟨hnil, hholds⟩
  · have hholds' := h.holds hholds
    have hsame := h.layout_eq
    rw [hholds.layout_eq] at hsame
    exact ⟨by rw [hsame]; exact hentry, .inl hholds'⟩
  · have hholds' := h.holds hholds
    exact ⟨hholds'.entry_le, .inr ⟨hnil, hholds'⟩⟩

/-- When the octets of an image over a base are opened as a new image, the fields stand where they
stood. What else the new layout says comes from the section headers. -/
theorem Over.reopened {data : Bytes} {x y : Image} (hx : parse data = .ok x)
    (h : i.Over x.layout x.base table) (hy : parse i.bytes = .ok y) :
    i.SameFields y ∧ ∃ header, Header.read? data = some header ∧
      header.sections? data = some x.layout.sections ∧
      header.sections? i.bytes = some y.layout.sections := by
  obtain ⟨hlayout, hbytes, -⟩ := parse_eq_ok_iff.1 hx
  obtain ⟨hlayout', hbytes', -⟩ := parse_eq_ok_iff.1 hy
  have hagree := h.agree x.base_prefix
  rw [hbytes] at hagree
  obtain ⟨header, hread, hsections, hsections', hsame⟩ :=
    Layout.exists_header_of_agree hlayout hlayout' h.1 hagree
  obtain ⟨_, hholds⟩ := h.exists_holds
  refine ⟨⟨hbytes', ?_⟩, header, hread, hsections, hsections'⟩
  rw [hholds.layout_eq]
  exact hsame

theorem Over.parse_of_layout {data : Bytes} {x : Image} {m : Layout}
    (hx : Image.parse data = .ok x) (h : i.Over x.layout x.base table)
    (hm : Layout.parse i.bytes = .ok m) : Image.parse i.bytes = .ok ⟨i.bytes, m⟩ := by
  obtain ⟨hlayout, hbytes, -⟩ := parse_eq_ok_iff.1 hx
  have hagree := h.agree x.base_prefix
  rw [hbytes] at hagree
  obtain ⟨_, -, -, -, hsame⟩ := Layout.exists_header_of_agree hlayout hm h.1 hagree
  have hfields : i.SameFields ⟨i.bytes, m⟩ := ⟨rfl, by rw [h.layout_eq]; exact hsame⟩
  obtain ⟨body, hholds⟩ := h.exists_holds
  obtain ⟨d, hd, hempty, htable⟩ := hholds.entry
  refine parse_eq_ok_iff.2 ⟨hm, rfl, d, hfields.directory_eq.trans hd, ?_⟩
  intro he
  have hne : table ≠ [] := by
    intro hnil
    rw [hempty hnil] at he
    cases he
  rw [htable hne, hholds.stop_eq, length, length]

/-- When everything the layout is read from is part of the base, an image over it is what its
octets are opened as. -/
theorem Over.parse {data : Bytes} {x : Image} (hx : Image.parse data = .ok x)
    (h : i.Over x.layout x.base table) (hheaders : x.layout.sizeOfHeaders ≤ i.length)
    (hsettled : x.layout.Settled x.base.length data) : Image.parse i.bytes = .ok i := by
  obtain ⟨hlayout, hbytes, -⟩ := parse_eq_ok_iff.1 hx
  have hagree := h.agree x.base_prefix
  rw [hbytes] at hagree
  have hread := Layout.parse_of_agree hlayout h.1 hagree hheaders hsettled
  rw [h.parse_of_layout hx hread, ← h.layout_eq]

end Authenticode.Pe.Image
