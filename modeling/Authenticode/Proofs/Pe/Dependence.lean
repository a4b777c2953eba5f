import Authenticode.Proofs.Pe.Coverage

/-!
# What a digest depends on

A digest depends on the octets at certain positions, and on each of them: on the
headers around the two rewritten fields, on the raw data of every section that is
not left out, on what stands between the furthest end of these and the table, and on
what stands behind the table. Sections may overlap each other, the headers or the
table, so that an octet is hashed more than once or counts for several reasons. Two
images with one layout and one directory entry have the same hashed octets exactly
when they agree at all of these positions.
-/
namespace Authenticode

namespace Pe

/-- The positions that a digest depends on in an image of `length` octets. -/
inductive Layout.Covers (l : Layout) (o : DigestOptions) (d : CertificateDirectory)
    (length p : Nat) : Prop
  | header (within : p < l.sizeOfHeaders) (kept : ¬l.Rewritten p) : Covers l o d length p
  | rawData {s : Section} (mem : s ∈ l.sections) (size : 0 < s.size) (kept : o.omits s = false)
      (start : s.offset ≤ p) (stop : p < s.stop) : Covers l o d length p
  /-- A section that is left out is not passed over when the end of all sections is found. -/
  | trailing (headers : l.sizeOfHeaders ≤ p) (sections : l.SectionsWithin p)
      (stop : p < if d.isEmpty then length else d.offset) : Covers l o d length p
  | behind (table : d.isEmpty = false) (start : d.stop ≤ p) : Covers l o d length p

variable {l : Layout} {i j : Image} {d : CertificateDirectory} {o : DigestOptions}
  {a b x y : Bytes}

namespace Layout

theorem stop_le_foldl_max {sections : List Section} {s : Section} (hs : s ∈ sections)
    (reached : Nat) : s.stop ≤ sections.foldl (fun r t => max r t.stop) reached := by
  induction sections generalizing reached with
  | nil => cases hs
  | cons t rest ih =>
    rcases List.mem_cons.1 hs with rfl | hs
    · exact (Nat.le_max_right reached s.stop).trans (le_foldl_max rest _)
    · exact ih hs _

theorem reach_le_iff {p : Nat} : l.reach ≤ p ↔ l.sizeOfHeaders ≤ p ∧ l.SectionsWithin p := by
  refine ⟨?_, fun h => reach_le h.1 h.2⟩
  intro h
  refine ⟨(sizeOfHeaders_le_reach l).trans h, ?_⟩
  intro s hs hsize
  exact (stop_le_foldl_max (mem_sectionsByOffset.2 ⟨hs, hsize⟩) _).trans h

theorem length_sectionOctets (omitted : Section → Bool) (sections : List Section)
    (hlength : a.length = b.length) :
    (sectionOctets a omitted sections).length = (sectionOctets b omitted sections).length := by
  unfold sectionOctets
  rw [List.length_flatMap, List.length_flatMap]
  congr 2
  funext s
  split
  · rfl
  · simp [Section.octets, hlength]

theorem forall_covers_iff {length : Nat} {P : Nat → Prop} :
    (∀ p, l.Covers o d length p → P p) ↔
      (((∀ p < l.sizeOfHeaders, ¬l.Rewritten p → P p) ∧
        ∀ s ∈ l.sectionsByOffset, o.omits s = false → ∀ p, s.offset ≤ p → p < s.stop → P p) ∧
        ∀ p, l.reach ≤ p → p < (if d.isEmpty then length else d.offset) → P p) ∧
        (d.isEmpty = false → ∀ p, d.stop ≤ p → P p) := by
  constructor
  · intro h
    refine ⟨⟨⟨?_, ?_⟩, ?_⟩, ?_⟩
    · intro p hp hkept
      exact h p (.header hp hkept)
    · intro s hs hkept p hstart hstop
      obtain ⟨hmem, hsize⟩ := mem_sectionsByOffset.1 hs
      exact h p (.rawData hmem hsize hkept hstart hstop)
    · intro p hp hstop
      obtain ⟨hheaders, hsections⟩ := reach_le_iff.1 hp
      exact h p (.trailing hheaders hsections hstop)
    · intro htable p hp
      exact h p (.behind htable hp)
  · rintro ⟨⟨⟨hheader, hraw⟩, htrailing⟩, hbehind⟩ p hcovers
    cases hcovers with
    | header within kept => exact hheader p within kept
    | rawData mem size kept start stop =>
      exact hraw _ (mem_sectionsByOffset.2 ⟨mem, size⟩) kept p start stop
    | trailing headers sections stop => exact htrailing p (reach_le_iff.2 ⟨headers, sections⟩) stop
    | behind table start => exact hbehind table p start

/-- The hashed octets of an image whose directory entry is `d`, part by part. -/
def hashed (l : Layout) (o : DigestOptions) (d : CertificateDirectory) (b : Bytes) : Bytes :=
  let stop := if d.isEmpty then b.length else d.offset
  l.headerOctets b ++ sectionOctets b o.omits l.sectionsByOffset
    ++ (b.take stop).drop l.reach
    ++ (if d.isEmpty then [] else b.drop d.stop)
    ++ (if o.padding then Bytes.zeros (align8 stop - stop) else [])

/-- Every part is as long in the one as in the other, so the parts are compared one by one. -/
theorem hashed_eq_iff (hordered : l.Ordered) (hlength : a.length = b.length) :
    l.hashed o d a = l.hashed o d b ↔ ∀ p, l.Covers o d a.length p → a[p]? = b[p]? := by
  have hheader : (l.headerOctets a).length = (l.headerOctets b).length := by
    simp [headerOctets, hlength]
  have hraw := length_sectionOctets o.omits l.sectionsByOffset hlength
  have htrailing : ((a.take (if d.isEmpty then a.length else d.offset)).drop l.reach).length
      = ((b.take (if d.isEmpty then a.length else d.offset)).drop l.reach).length := by
    simp [hlength]
  have hbehind : ((if d.isEmpty then [] else a.drop d.stop)
      = if d.isEmpty then [] else b.drop d.stop) ↔
        (d.isEmpty = false → ∀ p, d.stop ≤ p → a[p]? = b[p]?) := by
    cases d.isEmpty with
    | true => simp
    | false => simpa using Bytes.drop_eq_iff
  simp only [hashed]
  rw [← hlength, List.append_cancel_right_eq,
    List.append_eq_append_iff_of_size_eq_left (by simp only [List.length_append, hheader, hraw,
      htrailing]),
    List.append_eq_append_iff_of_size_eq_left (by simp only [List.length_append, hheader, hraw]),
    List.append_eq_append_iff_of_size_eq_left hheader, headerOctets_eq_iff hordered hlength,
    sectionOctets_eq_iff hlength, Bytes.take_drop_eq_iff, hbehind, forall_covers_iff]
  simp only [Section.octets, Bytes.take_drop_eq_iff]

end Layout

namespace Image

theorem coverage_eq_hashed (hi : parse a = .ok i) (hd : i.directory = .ok d)
    (hx : i.coverage o = .ok x) : i.layout.hashed o d i.bytes = x := by
  obtain ⟨hparsed, -, e, he, hinside⟩ := parse_eq_ok_iff.1 hi
  cases hd.symm.trans he
  have hordered := Layout.ordered_of_parse hparsed
  obtain ⟨hheaders, hsections⟩ := within_of_coverage hordered hx
  have hend : i.dataEnd d ≤ i.length := by
    unfold dataEnd
    split
    · exact Nat.le_refl _
    · next htable => exact (Nat.le_add_right _ _).trans (hinside (Bool.eq_false_iff.2 htable))
  rw [coverage_eq hordered hheaders hsections hd hend, Except.ok.injEq] at hx
  exact hx

/-- Two images that were parsed with one layout, one length and one directory entry have the same
hashed octets exactly when they agree at every position that the digest depends on; and then their
digests are the same. -/
theorem coverage_eq_iff_agree (hi : parse a = .ok i) (hj : parse b = .ok j)
    (hlayout : i.layout = j.layout) (hlength : i.length = j.length) (hd : i.directory = .ok d)
    (hd' : j.directory = .ok d) (hx : i.coverage o = .ok x) (hy : j.coverage o = .ok y) :
    (x = y ↔ ∀ p, i.layout.Covers o d i.length p → i.bytes[p]? = j.bytes[p]?) ∧
      ((∀ p, i.layout.Covers o d i.length p → i.bytes[p]? = j.bytes[p]?) →
        ∀ h : HashAlgorithm, i.digest h o = j.digest h o) := by
  have hordered := Layout.ordered_of_parse (parse_eq_ok_iff.1 hi).1
  have hstreams : x = y ↔
      ∀ p, i.layout.Covers o d i.length p → i.bytes[p]? = j.bytes[p]? := by
    rw [← coverage_eq_hashed hi hd hx, ← coverage_eq_hashed hj hd' hy, ← hlayout]
    exact Layout.hashed_eq_iff hordered hlength
  refine ⟨hstreams, ?_⟩
  intro hagree h
  rw [digest, digest, hx, hy, hstreams.2 hagree]

/-- Two least images with a section, a table behind it and an octet behind the table, the second of
them with the octet at `p` set: the digests are those of one stream for an octet of the stored
checksum, and those of different streams for an octet of the section. -/
theorem coverage_eq_iff_agree_least :
    let i := least ⟨272, 8⟩ [(264, 8)] (Bytes.zeros 17)
    let changed (p : Nat) : Image := { i with bytes := i.bytes.set p 1 }
    (∀ h : HashAlgorithm, i.digest h .signing = (changed 152).digest h .signing) ∧
      i.coverage .signing ≠ (changed 264).coverage .signing := by
  intro i changed
  have hi : parse i.bytes = .ok i := by decide +kernel
  have hparse : ∀ p ∈ [152, 264], parse (changed p).bytes = .ok (changed p) := by decide +kernel
  have hd : i.directory = .ok ⟨272, 8⟩ := by decide +kernel
  have hd' : ∀ p ∈ [152, 264], (changed p).directory = .ok ⟨272, 8⟩ := by decide +kernel
  have hcoverage : ∀ p ∈ [152, 264], (changed p).coverage .signing
      = .ok ((changed p).layout.hashed .signing ⟨272, 8⟩ (changed p).bytes) := by decide +kernel
  have hx : i.coverage .signing = .ok (i.layout.hashed .signing ⟨272, 8⟩ i.bytes) := by
    decide +kernel
  have hiff := fun p hp => coverage_eq_iff_agree hi (hparse p hp) rfl
    (List.length_set ..).symm hd (hd' p hp) hx (hcoverage p hp)
  constructor
  · have hsame : i.layout.hashed .signing ⟨272, 8⟩ i.bytes
        = (changed 152).layout.hashed .signing ⟨272, 8⟩ (changed 152).bytes := by decide +kernel
    exact (hiff 152 (by decide)).2 ((hiff 152 (by decide)).1.1 hsame)
  · intro hsame
    rw [hx, hcoverage 264 (by decide), Except.ok.injEq] at hsame
    have hcovers : i.layout.Covers .signing ⟨272, 8⟩ i.length 264 :=
      .rawData (s := ⟨"", 264, 8⟩) (by decide) (by decide) (by decide) (by decide) (by decide)
    exact absurd ((hiff 264 (by decide)).1.1 hsame 264 hcovers) (by decide +kernel)

end Image

end Pe

end Authenticode
