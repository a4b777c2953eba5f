import Authenticode.Pe.Coverage
import Authenticode.Proofs.Pe.Fields

/-!
# The octets under a digest

The covered octets are described in closed form here: the headers around the two
fields, the raw data of the sections, what follows them up to the table, and what
stands behind the table. Of an image that is a body with a table behind it the
signing digest covers the body alone, as if it were filled up to the alignment of a
table. So neither the table nor the filling shows in the digest, and two bodies
that differ in the rewritten fields only have one digest where no section covers
these fields.
-/
namespace Authenticode.Pe

namespace Layout

/-- The octets of the headers around the two fields. -/
def headerOctets (l : Layout) (b : Bytes) : Bytes :=
  b.take l.checksumOffset
    ++ (b.take l.directoryOffset).drop (l.checksumOffset + Checksum.fieldLength)
    ++ (b.take l.sizeOfHeaders).drop (l.directoryOffset + directoryEntrySize)

/-- The offset behind the headers and all raw data. -/
def reach (l : Layout) : Nat :=
  l.sectionsByOffset.foldl (fun reached s => max reached s.stop) l.sizeOfHeaders

/-- The raw data of all sections is inside `n` octets. -/
def SectionsWithin (l : Layout) (n : Nat) : Prop := ∀ s ∈ l.sections, 0 < s.size → s.stop ≤ n

/-- No section has one of the two rewritten fields, or a part of one, in its raw data. -/
def SectionsApart (l : Layout) : Prop :=
  ∀ s ∈ l.sections, 0 < s.size → ∀ p < s.stop, s.offset ≤ p → ¬l.Rewritten p

instance (l : Layout) (n : Nat) : Decidable (l.SectionsWithin n) :=
  inferInstanceAs (Decidable (∀ s ∈ l.sections, 0 < s.size → s.stop ≤ n))

instance (l : Layout) : Decidable l.SectionsApart :=
  inferInstanceAs (Decidable (∀ s ∈ l.sections, 0 < s.size →
    ∀ p < s.stop, s.offset ≤ p → ¬l.Rewritten p))

end Layout

def Section.octets (s : Section) (b : Bytes) : Bytes := (b.take s.stop).drop s.offset

/-- The raw data of sections that are not left out. -/
def sectionOctets (b : Bytes) (omitted : Section → Bool) (sections : List Section) : Bytes :=
  sections.flatMap fun s => if omitted s then [] else s.octets b

def DigestOptions.omits (o : DigestOptions) (s : Section) : Bool :=
  o.omitVendorCertificate && s.name == vendorSection

/-- What a padded digest covers of a body in front of a certificate table. -/
def Layout.stream (l : Layout) (omitted : Section → Bool) (body : Bytes) : Bytes :=
  l.headerOctets body ++ sectionOctets body omitted l.sectionsByOffset ++ body.drop l.reach
    ++ Bytes.zeros (align8 body.length - body.length)

namespace Layout

variable {l : Layout} {s : Section} {n : Nat}

theorem mem_sectionsByOffset : s ∈ l.sectionsByOffset ↔ s ∈ l.sections ∧ 0 < s.size := by
  simp [sectionsByOffset]

theorem le_foldl_max (sections : List Section) (reached : Nat) :
    reached ≤ sections.foldl (fun r s => max r s.stop) reached := by
  induction sections generalizing reached with
  | nil => exact Nat.le_refl _
  | cons s rest ih => exact (Nat.le_max_left _ _).trans (ih _)

theorem foldl_max_le {sections : List Section} {reached : Nat} (hreached : reached ≤ n)
    (h : ∀ s ∈ sections, s.stop ≤ n) :
    sections.foldl (fun r s => max r s.stop) reached ≤ n := by
  induction sections generalizing reached with
  | nil => exact hreached
  | cons s rest ih =>
    refine ih (Nat.max_le.2 ⟨hreached, h s (by simp)⟩) fun t ht => h t (by simp [ht])

theorem sizeOfHeaders_le_reach (l : Layout) : l.sizeOfHeaders ≤ l.reach := le_foldl_max _ _

theorem reach_le (hheaders : l.sizeOfHeaders ≤ n) (h : l.SectionsWithin n) : l.reach ≤ n :=
  foldl_max_le hheaders fun s hs =>
    h s (mem_sectionsByOffset.1 hs).1 (mem_sectionsByOffset.1 hs).2

variable {a b : Bytes} {omitted : Section → Bool}

theorem headerOctets_append (hordered : l.Ordered) (hheaders : l.sizeOfHeaders ≤ a.length)
    (tail : Bytes) : l.headerOctets (a ++ tail) = l.headerOctets a := by
  have hchecksum := hordered.checksum_le
  have hentry := hordered.entry_le
  unfold headerOctets
  rw [List.take_append_of_le_length (by omega), List.take_append_of_le_length (by omega),
    List.take_append_of_le_length hheaders]

theorem sectionOctets_append (hsections : l.SectionsWithin a.length) (tail : Bytes) :
    sectionOctets (a ++ tail) omitted l.sectionsByOffset
      = sectionOctets a omitted l.sectionsByOffset := by
  unfold sectionOctets
  apply List.flatMap_congr
  intro s hs
  obtain ⟨hmem, hsize⟩ := mem_sectionsByOffset.1 hs
  rw [Section.octets, List.take_append_of_le_length (hsections s hmem hsize)]
  rfl

theorem stream_aligned (hordered : l.Ordered) (hheaders : l.sizeOfHeaders ≤ b.length)
    (hsections : l.SectionsWithin b.length) : l.stream omitted b.aligned = l.stream omitted b := by
  unfold stream
  rw [Bytes.length_aligned, Bytes.align8_align8, Nat.sub_self, Bytes.aligned_eq_append,
    headerOctets_append hordered hheaders, sectionOctets_append hsections,
    List.drop_append_of_le_length (reach_le hheaders hsections)]
  simp [Bytes.zeros]

theorem sectionOctets_eq_iff {sections : List Section} (hlength : a.length = b.length) :
    sectionOctets a omitted sections = sectionOctets b omitted sections ↔
      ∀ s ∈ sections, omitted s = false → s.octets a = s.octets b := by
  induction sections with
  | nil => exact ⟨fun _ => List.forall_mem_nil _, fun _ => rfl⟩
  | cons s rest ih =>
    rw [sectionOctets, sectionOctets, List.flatMap_cons, List.flatMap_cons, ← sectionOctets,
      ← sectionOctets, List.forall_mem_cons, ← ih]
    cases hs : omitted s with
    | true => simp
    | false =>
      have hsame : (s.octets a).length = (s.octets b).length := by
        simp only [Section.octets, List.length_drop, List.length_take, hlength]
      rw [if_neg Bool.false_ne_true, if_neg Bool.false_ne_true]
      constructor
      · intro h
        obtain ⟨hfirst, hrest⟩ := List.append_inj h hsame
        exact ⟨fun _ => hfirst, hrest⟩
      · rintro ⟨hfirst, hrest⟩
        rw [hfirst rfl, hrest]

theorem headerOctets_eq_iff (hordered : l.Ordered) (hlength : a.length = b.length) :
    l.headerOctets a = l.headerOctets b ↔
      ∀ p < l.sizeOfHeaders, ¬l.Rewritten p → a[p]? = b[p]? := by
  have hchecksum := hordered.checksum_le
  have hentry := hordered.entry_le
  unfold headerOctets
  rw [List.append_eq_append_iff_of_size_eq_left (by simp [hlength]),
    List.append_eq_append_iff_of_size_eq_left (by simp [hlength]),
    Bytes.take_drop_eq_iff, Bytes.take_drop_eq_iff, ← List.drop_zero (l := a.take _),
    ← List.drop_zero (l := b.take _), Bytes.take_drop_eq_iff]
  constructor
  · rintro ⟨⟨hfirst, hsecond⟩, hthird⟩ p hp hkept
    obtain ⟨hfield, hdirectory⟩ := not_or.1 hkept
    by_cases hbefore : p < l.checksumOffset
    · exact hfirst p (Nat.zero_le p) hbefore
    · have hbehind : l.checksumOffset + Checksum.fieldLength ≤ p :=
        Nat.not_lt.1 fun hlt => hfield ⟨Nat.not_lt.1 hbefore, hlt⟩
      by_cases hbetween : p < l.directoryOffset
      · exact hsecond p hbehind hbetween
      · exact hthird p (Nat.not_lt.1 fun hlt => hdirectory ⟨Nat.not_lt.1 hbetween, hlt⟩) hp
  · intro h
    have hclear : ∀ k, ¬l.Rewritten k ↔
        ¬(l.checksumOffset ≤ k ∧ k < l.checksumOffset + Checksum.fieldLength) ∧
        ¬(l.directoryOffset ≤ k ∧ k < l.directoryOffset + directoryEntrySize) := fun k => not_or
    refine ⟨⟨?_, ?_⟩, ?_⟩
    · intro k _ hk
      exact h k (by omega) ((hclear k).2 (by omega))
    · intro k hk hk'
      exact h k (by omega) ((hclear k).2 (by omega))
    · intro k hk hk'
      exact h k hk' ((hclear k).2 (by omega))

/-- The rewritten fields show in the stream through sections that cover them, and only so. -/
theorem stream_eq_iff (hordered : l.Ordered) (h : Bytes.AgreeOff l.Rewritten a b) :
    l.stream omitted a = l.stream omitted b ↔
      ∀ s ∈ l.sections, 0 < s.size → omitted s = false → s.octets a = s.octets b := by
  have hheaders : l.headerOctets a = l.headerOctets b :=
    (headerOctets_eq_iff hordered h.1).2 fun p _ hkept => h.2 p hkept
  have hrest : a.drop l.reach = b.drop l.reach := by
    have hreach := hordered.entry_le.trans l.sizeOfHeaders_le_reach
    exact Bytes.drop_eq_iff.2 fun p hp => h.2 p (hordered.not_rewritten_of_le (hreach.trans hp))
  unfold stream
  rw [hheaders, hrest, h.1, List.append_cancel_right_eq, List.append_cancel_right_eq,
    List.append_cancel_left_eq, sectionOctets_eq_iff h.1]
  simp only [mem_sectionsByOffset, and_imp]

theorem SectionsApart.octets_eq (hapart : l.SectionsApart) (h : Bytes.AgreeOff l.Rewritten a b) :
    ∀ s ∈ l.sections, 0 < s.size → s.octets a = s.octets b := by
  intro s hs hsize
  exact h.take_drop_eq fun k hk hk' => hapart s hs hsize k hk' hk

end Layout

namespace Image

variable {i : Image} {d : CertificateDirectory} {o : DigestOptions}

/-- Covering sections succeeds exactly when all of them are inside; then it gives their raw data
and the furthest end. -/
theorem sectionCoverage_of_within {data : Bytes} {omitted : Section → Bool}
    {sections : List Section} (reached : Nat) (h : ∀ s ∈ sections, s.stop ≤ data.length) :
    sectionCoverage data omitted sections reached =
      .ok (sectionOctets data omitted sections,
        sections.foldl (fun r s => max r s.stop) reached) := by
  induction sections generalizing reached with
  | nil => rfl
  | cons s rest ih =>
    have hraw : data.slice? s.offset s.stop = some _ :=
      Bytes.slice?_of_le (Nat.le_add_right _ _) (h s (by simp))
    unfold sectionCoverage
    rw [hraw]
    dsimp only
    rw [ih _ fun t ht => h t (by simp [ht])]
    rfl

theorem sectionCoverage_of_not_within {data : Bytes} {sections : List Section}
    (omitted : Section → Bool) (reached : Nat) (h : ¬∀ s ∈ sections, s.stop ≤ data.length) :
    ∃ name, sectionCoverage data omitted sections reached
      = .error (.image (.sectionOutside name)) := by
  induction sections generalizing reached with
  | nil => exact absurd nofun h
  | cons s rest ih =>
    unfold sectionCoverage
    by_cases hs : s.stop ≤ data.length
    · have hrest : ¬∀ t ∈ rest, t.stop ≤ data.length := fun hrest =>
        h (List.forall_mem_cons.2 ⟨hs, hrest⟩)
      obtain ⟨name, hname⟩ := ih (max reached s.stop) hrest
      refine ⟨name, ?_⟩
      have hraw : data.slice? s.offset s.stop = some _ :=
        Bytes.slice?_of_le (Nat.le_add_right _ _) hs
      rw [hraw]
      dsimp only
      rw [hname]
      rfl
    · refine ⟨s.name, ?_⟩
      have hnone : data.slice? s.offset s.stop = none := if_neg fun hin => hs hin.2
      rw [hnone]
      rfl

theorem range_of_le {data : Bytes} {start stop : Nat} (h : start ≤ stop)
    (h' : stop ≤ data.length) : range data start stop = .ok ((data.take stop).drop start) := by
  rw [range, Bytes.slice?_of_le h h']

theorem headerCoverage_eq (hordered : i.layout.Ordered)
    (hheaders : i.layout.sizeOfHeaders ≤ i.length) :
    i.headerCoverage = .ok (i.layout.headerOctets i.bytes) := by
  have hchecksum := hordered.checksum_le
  have hentry := hordered.entry_le
  unfold length at hheaders
  unfold headerCoverage
  dsimp only
  rw [range_of_le (Nat.zero_le _) (by omega), range_of_le (by omega) (by omega),
    range_of_le hentry hheaders]
  rfl

theorem coverage_of_length_lt (h : i.length < i.layout.sizeOfHeaders) :
    i.coverage o = .error .aborted := by
  have hlast : range i.bytes (i.layout.directoryOffset + directoryEntrySize) i.layout.sizeOfHeaders
      = .error .aborted := by
    have hnone : i.bytes.slice? (i.layout.directoryOffset + directoryEntrySize)
        i.layout.sizeOfHeaders = none := if_neg fun hin => Nat.not_le.2 h hin.2
    rw [range, hnone]
  have hrange : ∀ start stop, range i.bytes start stop = .error .aborted ∨
      ∃ b, range i.bytes start stop = .ok b := by
    intro start stop
    unfold range
    split
    · exact .inr ⟨_, rfl⟩
    · exact .inl rfl
  have hheaders : i.headerCoverage = .error .aborted := by
    simp only [headerCoverage]
    rcases hrange 0 i.layout.checksumOffset with hfirst | ⟨first, hfirst⟩
    · rw [hfirst]
      rfl
    rcases hrange (i.layout.checksumOffset + Checksum.fieldLength) i.layout.directoryOffset with
      hsecond | ⟨second, hsecond⟩
    · rw [hfirst, hsecond]
      rfl
    rw [hfirst, hsecond, hlast]
    rfl
  unfold coverage
  rw [hheaders]
  rfl

/-- The offset up to which an image is covered from its sections on. -/
def dataEnd (i : Image) (d : CertificateDirectory) : Nat := if d.isEmpty then i.length else d.offset

theorem coverage_eq (hordered : i.layout.Ordered) (hheaders : i.layout.sizeOfHeaders ≤ i.length)
    (hsections : i.layout.SectionsWithin i.length) (hd : i.directory = .ok d)
    (hend : i.dataEnd d ≤ i.length) :
    i.coverage o = .ok (i.layout.headerOctets i.bytes
      ++ sectionOctets i.bytes o.omits i.layout.sectionsByOffset
      ++ (i.bytes.take (i.dataEnd d)).drop i.layout.reach
      ++ (if d.isEmpty then [] else i.bytes.drop d.stop)
      ++ (if o.padding then Bytes.zeros (align8 (i.dataEnd d) - i.dataEnd d) else [])) := by
  have hwithin : ∀ s ∈ i.layout.sectionsByOffset, s.stop ≤ i.bytes.length := fun s hs =>
    hsections s (Layout.mem_sectionsByOffset.1 hs).1 (Layout.mem_sectionsByOffset.1 hs).2
  unfold coverage
  rw [headerCoverage_eq hordered hheaders, hd]
  change (sectionCoverage i.bytes o.omits i.layout.sectionsByOffset i.layout.sizeOfHeaders >>=
    fun found => _) = _
  rw [sectionCoverage_of_within _ hwithin]
  change (if i.layout.reach < i.dataEnd d
    then range i.bytes i.layout.reach (i.dataEnd d) >>= fun trailing => _ else _) = _
  by_cases htrailing : i.layout.reach < i.dataEnd d
  · rw [if_pos htrailing, range_of_le htrailing.le hend]
    rfl
  · have hnone : (i.bytes.take (i.dataEnd d)).drop i.layout.reach = [] :=
      List.drop_eq_nil_of_le (by rw [List.length_take]; omega)
    rw [if_neg htrailing, hnone]
    rfl

theorem coverage_of_not_within (hordered : i.layout.Ordered)
    (hheaders : i.layout.sizeOfHeaders ≤ i.length)
    (hsections : ¬i.layout.SectionsWithin i.length) :
    ∃ name, i.coverage o = .error (.image (.sectionOutside name)) := by
  have houtside : ¬∀ s ∈ i.layout.sectionsByOffset, s.stop ≤ i.bytes.length := fun hwithin =>
    hsections fun s hs hsize => hwithin s (Layout.mem_sectionsByOffset.2 ⟨hs, hsize⟩)
  obtain ⟨name, hname⟩ := sectionCoverage_of_not_within o.omits i.layout.sizeOfHeaders houtside
  refine ⟨name, ?_⟩
  unfold coverage
  rw [headerCoverage_eq hordered hheaders]
  change (sectionCoverage i.bytes o.omits i.layout.sectionsByOffset i.layout.sizeOfHeaders >>=
    fun found => _) = _
  rw [hname]
  rfl

theorem within_of_coverage {covered : Bytes} (hordered : i.layout.Ordered)
    (h : i.coverage o = .ok covered) :
    i.layout.sizeOfHeaders ≤ i.length ∧ i.layout.SectionsWithin i.length := by
  by_cases hheaders : i.layout.sizeOfHeaders ≤ i.length
  · refine ⟨hheaders, ?_⟩
    by_contra hsections
    obtain ⟨name, hname⟩ := coverage_of_not_within (o := o) hordered hheaders hsections
    rw [hname] at h
    cases h
  · rw [coverage_of_length_lt (Nat.not_le.1 hheaders)] at h
    cases h

end Image

end Authenticode.Pe
