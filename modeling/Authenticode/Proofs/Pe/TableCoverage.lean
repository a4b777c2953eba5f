import Authenticode.Proofs.Pe.Coverage
import Authenticode.Proofs.Pe.Table

/-!
# The digest of an image with a table

A padded digest of an image that is a body with a table behind it covers the stream
of the body. So it depends on neither the table nor the filling in front of it, and
all images over one base have one digest where the base holds the headers and the
raw data of all sections.
-/
namespace Authenticode.Pe

/-- Two layouts that differ in the names of their sections at most. -/
structure Layout.SamePlaces (l m : Layout) : Prop where
  offsets_eq : m = { l with sections := m.sections }
  places_eq : m.sections.map Section.place = l.sections.map Section.place

namespace Layout.SamePlaces

variable {l m : Layout} {n : Nat} {b : Bytes}

theorem forall_mem_iff (h : l.SamePlaces m) {p : Nat × Nat → Prop} :
    (∀ s ∈ m.sections, p s.place) ↔ ∀ s ∈ l.sections, p s.place := by
  rw [← List.forall_mem_map, h.places_eq, List.forall_mem_map]

theorem sectionsWithin (h : l.SamePlaces m) (hsections : l.SectionsWithin n) :
    m.SectionsWithin n :=
  h.forall_mem_iff (p := fun q => 0 < q.2 → q.1 + q.2 ≤ n) |>.2 hsections

theorem sectionsApart (h : l.SamePlaces m) (hapart : l.SectionsApart) : m.SectionsApart := by
  have hrewritten : m.Rewritten = l.Rewritten := by
    rw [h.offsets_eq]
    rfl
  unfold SectionsApart
  rw [hrewritten]
  exact h.forall_mem_iff
    (p := fun q => 0 < q.2 → ∀ k < q.1 + q.2, q.1 ≤ k → ¬l.Rewritten k) |>.2 hapart

theorem places_sectionsByOffset (h : l.SamePlaces m) :
    m.sectionsByOffset.map Section.place = l.sectionsByOffset.map Section.place := by
  have hsort : ∀ k : Layout, k.sectionsByOffset.map Section.place
      = ((k.sections.map Section.place).filter fun q => 0 < q.2).mergeSort
        fun q r => q.1 ≤ r.1 := by
    intro k
    have hmap := List.map_mergeSort (l := k.sections.filter fun s => 0 < s.size)
      (r := fun s t => s.offset ≤ t.offset) (s := fun q r : Nat × Nat => q.1 ≤ r.1)
      (f := Section.place) (fun _ _ _ _ => rfl)
    unfold sectionsByOffset
    rw [hmap, List.filter_map]
    rfl
  rw [hsort, hsort, h.places_eq]

theorem stream_eq (h : l.SamePlaces m) :
    m.stream (fun _ => false) b = l.stream (fun _ => false) b := by
  have hheaders : m.headerOctets b = l.headerOctets b := by
    rw [h.offsets_eq]
    rfl
  have hoctets : ∀ sections : List Section, sectionOctets b (fun _ => false) sections
      = (sections.map Section.place).flatMap fun q => (b.take (q.1 + q.2)).drop q.1 := by
    intro sections
    rw [List.flatMap_map]
    rfl
  have hreach : ∀ k : Layout, k.reach = (k.sectionsByOffset.map Section.place).foldl
      (fun reached q => max reached (q.1 + q.2)) k.sizeOfHeaders := by
    intro k
    rw [List.foldl_map]
    rfl
  have hsize : m.sizeOfHeaders = l.sizeOfHeaders := by rw [h.offsets_eq]
  unfold stream
  rw [hheaders, hoctets, hoctets, hreach, hreach, h.places_sectionsByOffset, hsize]

end Layout.SamePlaces

namespace Image

variable {i j : Image} {l : Layout} {d : CertificateDirectory} {base body table : Bytes}
  {o : DigestOptions} {a : HashAlgorithm}

theorem Holds.coverage (h : i.Holds l body table) (ho : o.padding = true)
    (hheaders : l.sizeOfHeaders ≤ body.length) (hsections : l.SectionsWithin body.length) :
    i.coverage o = .ok (l.stream o.omits (i.bytes.take body.length)) := by
  obtain ⟨kept, hkept, hbytes⟩ := h.kept
  obtain ⟨d, hd, hempty, htable⟩ := h.entry
  have hlen := h.length_eq
  rw [← hkept.1] at hheaders hsections hlen
  have hend : i.dataEnd d = kept.length := by
    unfold dataEnd
    by_cases hnil : table = []
    · rw [hempty hnil, if_pos rfl, hlen, hnil]
      rfl
    · rw [htable hnil, h.isEmpty_table hnil, if_neg Bool.false_ne_true, hkept.1]
  have hbehind : (if d.isEmpty then [] else i.bytes.drop d.stop) = [] := by
    by_cases hnil : table = []
    · rw [hempty hnil, if_pos rfl]
    · rw [htable hnil, h.isEmpty_table hnil, if_neg Bool.false_ne_true, h.stop_eq]
      exact List.drop_length
  have hwithin : l.SectionsWithin i.length := fun s hs hsize =>
    (hsections s hs hsize).trans (by omega)
  rw [coverage_eq (h.layout_eq ▸ h.ordered) (by rw [h.layout_eq]; omega)
    (by rwa [h.layout_eq]) hd (by omega), hend, hbehind, ho, if_pos rfl, h.layout_eq, ← hkept.1,
    hbytes, Layout.headerOctets_append h.ordered hheaders, Layout.sectionOctets_append hsections,
    List.take_left, List.append_nil]
  rfl

/-- What is covered of an image over a base: what stands in the place of the base. -/
theorem Over.coverage (h : i.Over l base table) (ho : o.padding = true)
    (hheaders : l.sizeOfHeaders ≤ base.length) (hsections : l.SectionsWithin base.length) :
    Bytes.AgreeOff l.Rewritten (i.bytes.take base.length) base ∧
      i.coverage o = .ok (l.stream o.omits (i.bytes.take base.length)) := by
  obtain ⟨hentry, hholds | ⟨rfl, hholds⟩⟩ := h
  · obtain ⟨kept, hkept, hbytes⟩ := hholds.kept
    have hle := Bytes.length_le_aligned base
    have htake : i.bytes.take base.aligned.length = kept := by rw [hbytes, List.take_left' hkept.1]
    have hfront : i.bytes.take base.length = kept.take base.length := by
      rw [hbytes, List.take_append_of_le_length (hkept.1 ▸ hle)]
    have hagree := hkept.take base.length
    rw [Bytes.aligned_eq_append base, List.take_left, ← hfront] at hagree
    have hkept_eq : kept = Bytes.aligned (i.bytes.take base.length) := by
      rw [hfront]
      apply hkept.eq_aligned
      intro k hk
      exact hholds.ordered.not_rewritten_of_le (hentry.trans hk)
    have hwithin : l.SectionsWithin base.aligned.length := fun s hs hsize =>
      (hsections s hs hsize).trans hle
    refine ⟨hagree, ?_⟩
    rw [hholds.coverage ho (hheaders.trans hle) hwithin, htake, hkept_eq,
      Layout.stream_aligned hholds.ordered (hagree.1.symm ▸ hheaders) (hagree.1.symm ▸ hsections)]
  · obtain ⟨kept, hkept, hbytes⟩ := hholds.kept
    refine ⟨?_, hholds.coverage ho hheaders hsections⟩
    rwa [hbytes, List.append_nil, ← hkept.1, List.take_length]

/-- Two images over one base have the same octets covered exactly when they have the same raw data
in each section. -/
theorem Over.coverage_eq_iff {table' : Bytes} (hi : i.Over l base table)
    (hj : j.Over l base table') (hheaders : l.sizeOfHeaders ≤ base.length)
    (hsections : l.SectionsWithin base.length) :
    i.coverage .signing = j.coverage .signing ↔
      ∀ s ∈ l.sections, 0 < s.size → s.octets i.bytes = s.octets j.bytes := by
  obtain ⟨_, hholds⟩ := hi.exists_holds
  obtain ⟨hbase, hcoverage⟩ := hi.coverage (o := .signing) rfl hheaders hsections
  obtain ⟨hbase', hcoverage'⟩ := hj.coverage (o := .signing) rfl hheaders hsections
  rw [hcoverage, hcoverage', Except.ok.injEq,
    Layout.stream_eq_iff hholds.ordered (hbase.trans hbase'.symm)]
  have hoctets : ∀ s ∈ l.sections, 0 < s.size → ∀ b : Bytes,
      s.octets (b.take base.length) = s.octets b := by
    intro s hs hsize b
    rw [Section.octets, List.take_take, Nat.min_eq_left (hsections s hs hsize)]
    rfl
  constructor
  · intro h s hs hsize
    rw [← hoctets s hs hsize, h s hs hsize rfl, hoctets s hs hsize]
  · intro h s hs hsize _
    rw [hoctets s hs hsize, h s hs hsize, hoctets s hs hsize]

theorem Over.padded_digest (h : i.Over l base table) (ho : o.padding = true)
    (hheaders : l.sizeOfHeaders ≤ base.length) (hsections : l.SectionsWithin base.length)
    (hapart : l.SectionsApart) :
    i.digest a o = .ok (Digest.compute a (l.stream o.omits base)) := by
  obtain ⟨_, hholds⟩ := h.exists_holds
  obtain ⟨hbase, hcoverage⟩ := h.coverage ho hheaders hsections
  have hstream : l.stream o.omits (i.bytes.take base.length) = l.stream o.omits base := by
    apply (Layout.stream_eq_iff hholds.ordered hbase).2
    intro s hs hsize _
    exact hapart.octets_eq hbase s hs hsize
  rw [Image.digest, hcoverage, ← hstream]
  rfl

theorem Over.digest (h : i.Over l base table) (hheaders : l.sizeOfHeaders ≤ base.length)
    (hsections : l.SectionsWithin base.length) (hapart : l.SectionsApart) :
    i.digest a .signing = .ok (Digest.compute a (l.stream (fun _ => false) base)) :=
  h.padded_digest rfl hheaders hsections hapart

theorem exists_holds_base (hordered : i.layout.Ordered) (hd : i.directory = .ok d)
    (hend : d.isEmpty = false → d.stop = i.length)
    (hin : i.layout.directoryOffset + directoryEntrySize ≤ i.base.length) :
    ∃ table, i.Holds i.layout i.base table := by
  cases he : d.isEmpty with
  | true =>
    rw [base_of_isEmpty hd he] at hin ⊢
    exact ⟨[], rfl, hordered, hin, ⟨_, .refl _ _, (List.append_nil _).symm⟩, d, hd, fun _ => he,
      nofun⟩
  | false =>
    have hstop := hend he
    rw [base_of_stop_eq hd he hstop] at hin ⊢
    have hoffset : (i.bytes.take d.offset).length = d.offset := by
      rw [List.length_take]
      unfold CertificateDirectory.stop length at hstop
      omega
    have hsize : (i.bytes.drop d.offset).length = d.size := by
      rw [List.length_drop]
      unfold CertificateDirectory.stop length at hstop
      omega
    refine ⟨i.bytes.drop d.offset, rfl, hordered, hin,
      ⟨_, .refl _ _, (List.take_append_drop _ _).symm⟩, d, hd, ?_, ?_⟩
    · intro hnil
      have hpos := (CertificateDirectory.isEmpty_eq_false_iff.1 he).2
      rw [hnil, List.length_nil] at hsize
      omega
    · intro _
      rw [hoffset, hsize]

/-- The base holds the headers, the section headers and the raw data of all sections, and neither a
section header nor raw data has a part of the rewritten fields. -/
structure Regular (i : Image) : Prop where
  headers_le : i.layout.sizeOfHeaders ≤ i.base.length
  sectionsKept : ∀ h, Header.read? i.bytes = some h → h.SectionsKept i.layout i.base.length
  sectionsWithin : i.layout.SectionsWithin i.base.length
  sectionsApart : i.layout.SectionsApart

/-- There is no certificate table, or it ends the file. -/
def TableAtEnd (i : Image) : Prop :=
  ∀ d, i.directory = .ok d → d.isEmpty = false → d.stop = i.length

theorem Over.digest_of_parse {data : Bytes} {x y : Image} (hx : Image.parse data = .ok x)
    (h : i.Over x.layout x.base table) (hy : Image.parse i.bytes = .ok y) (hregular : x.Regular) :
    y.digest a .signing
      = .ok (Digest.compute a (x.layout.stream (fun _ => false) x.base)) := by
  obtain ⟨-, hbytes, -⟩ := parse_eq_ok_iff.1 hx
  have hagree := h.agree x.base_prefix
  rw [hbytes] at hagree
  obtain ⟨hfields, header, hread, hsections, hsections'⟩ := h.reopened hx hy
  obtain ⟨_, hholds⟩ := h.exists_holds
  have hplaces : x.layout.SamePlaces y.layout := by
    refine ⟨?_, Header.places_eq hagree (hregular.sectionsKept header (hbytes ▸ hread)) hsections
      hsections'⟩
    rw [← hholds.layout_eq]
    exact hfields.layout_eq
  have hsize : y.layout.sizeOfHeaders = x.layout.sizeOfHeaders := by rw [hplaces.offsets_eq]
  rw [(hfields.over h).digest (hsize ▸ hregular.headers_le)
    (hplaces.sectionsWithin hregular.sectionsWithin) (hplaces.sectionsApart hregular.sectionsApart),
    hplaces.stream_eq]

/-- The digest of an image whose table ends the file is that of its base. -/
theorem TableAtEnd.digest {data : Bytes} (hend : i.TableAtEnd) (hi : Image.parse data = .ok i)
    (hheaders : i.layout.sizeOfHeaders ≤ i.base.length)
    (hsections : i.layout.SectionsWithin i.base.length) :
    i.digest a .signing = .ok (Digest.compute a (i.layout.stream (fun _ => false) i.base)) := by
  obtain ⟨hlayout, -, d, hd, -⟩ := parse_eq_ok_iff.1 hi
  have hordered := Layout.ordered_of_parse hlayout
  obtain ⟨table, hholds⟩ := exists_holds_base hordered hd (hend d hd)
    (hordered.entry_le.trans hheaders)
  rw [Image.digest, hholds.coverage rfl hheaders hsections,
    ← List.prefix_iff_eq_take.1 i.base_prefix]
  rfl

theorem Regular.digest {data : Bytes} (h : i.Regular) (hi : Image.parse data = .ok i)
    (hend : i.TableAtEnd) :
    i.digest a .signing = .ok (Digest.compute a (i.layout.stream (fun _ => false) i.base)) :=
  hend.digest hi h.headers_le h.sectionsWithin

/-- The octets under the digest stay when the table is cleared: there is none, or it ends the file
and no raw data has a part of the rewritten fields. -/
def ClearsApart (i : Image) : Prop :=
  ∀ d, i.directory = .ok d → d.isEmpty = false → d.stop = i.length ∧ i.layout.SectionsApart

theorem ClearsApart.digest {data : Bytes} {w : Option Warning} {digest : Digest}
    (hapart : i.ClearsApart) (hi : Image.parse data = .ok i) (hclear : clearTable i = .ok w j)
    (hdigest : j.digest a .signing = .ok digest) : i.digest a .signing = .ok digest := by
  obtain ⟨hlayout, -, d, hd, -⟩ := parse_eq_ok_iff.1 hi
  cases he : d.isEmpty with
  | true =>
    rw [clearTable_of_isEmpty hd he] at hclear
    cases hclear
    exact hdigest
  | false =>
    have hordered := Layout.ordered_of_parse hlayout
    obtain ⟨hlength, hsame, hholds⟩ := holds_of_clearTable hordered hclear
    obtain ⟨covered, hcovered, -⟩ := Except.map_eq_ok_iff.1 hdigest
    have hwithin := within_of_coverage (hsame ▸ hordered) hcovered
    rw [hsame, hlength] at hwithin
    obtain ⟨hheaders, hsections⟩ := hwithin
    have hin := hordered.entry_le.trans hheaders
    have hover : j.Over i.layout i.base [] := ⟨hin, .inr ⟨rfl, hholds hin⟩⟩
    have hend : i.TableAtEnd := fun e he hne => (hapart e he hne).1
    rw [hend.digest hi hheaders hsections,
      ← hover.digest hheaders hsections (hapart d hd he).2]
    exact hdigest

end Image

end Authenticode.Pe
