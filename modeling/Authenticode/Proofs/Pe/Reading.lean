import Authenticode.Proofs.Pe.Fields

/-!
# Reading the layout again

A file that was signed is read again later. The header fields that the layout comes
from stand in front of the directory entry and are no part of what signing rewrites,
so both readings give the same offsets. The section headers and the long names may
stand anywhere; where they are kept as well, both readings give the same layout.
-/
namespace Authenticode.Pe

theorem OptionalHeader.read?_eq_some_iff {data : Bytes} {offset : Nat} {o : OptionalHeader} :
    read? data offset = some o ↔ ∃ magic, data.u16? offset = some magic ∧
      (magic = 0x10b ∨ magic = 0x20b) ∧ o.wide = decide (magic = 0x20b) ∧
      data.u32? (offset + 60) = some o.sizeOfHeaders ∧
      data.u32? (offset + fixedSize o.wide - 4) = some o.directoryCount ∧
      o.directoryCount ≤ 16 ∧
      offset + fixedSize o.wide + 8 * o.directoryCount ≤ data.length := by
  unfold read?
  simp only [Option.bind_eq_bind, Option.bind_eq_some_iff, guard_eq_some_iff, Option.some.injEq]
  constructor
  · rintro ⟨magic, hmagic, -, hkind, size, hsize, count, hcount, -, hle, -, hin, rfl⟩
    exact ⟨magic, hmagic, hkind, rfl, hsize, hcount, hle, hin⟩
  · rintro ⟨magic, hmagic, hkind, hwide, hsize, hcount, hle, hin⟩
    rw [hwide] at hcount hin
    exact ⟨magic, hmagic, ⟨⟩, hkind, _, hsize, _, hcount, ⟨⟩, hle, ⟨⟩, hin, by rw [← hwide]⟩

theorem Header.read?_eq_some_iff {data : Bytes} {h : Header} {o : OptionalHeader}
    (ho : h.optional = some o) :
    read? data = some h ↔ data.u16? 0 = some 0x5a4d ∧ data.u32? 0x3c = some h.peOffset ∧
      data.u32? h.peOffset = some 0x4550 ∧
      (0x80 ≤ data.length ∧ h.peOffset + optionalHeaderGap ≤ data.length) ∧
      data.u16? (h.peOffset + 6) = some h.sectionCount ∧
      data.u32? (h.peOffset + 12) = some h.symbolTable ∧
      data.u32? (h.peOffset + 16) = some h.symbolCount ∧
      data.u16? (h.peOffset + 20) = some h.optionalSize ∧ h.optionalSize ≠ 0 ∧
      OptionalHeader.read? data (h.peOffset + optionalHeaderGap) = some o := by
  unfold read?
  simp only [Option.bind_eq_bind, Option.bind_eq_some_iff, guard_eq_some_iff]
  constructor
  · rintro ⟨mark, hmark, -, rfl, pe, hpe, signature, hsignature, -, rfl, -, hin, count, hcount,
      table, htable, symbols, hsymbols, size, hsize, h⟩
    split at h
    · cases h
      cases ho
    · next hzero =>
      obtain ⟨o', ho', h⟩ := Option.bind_eq_some_iff.1 h
      cases h
      cases ho
      exact ⟨hmark, hpe, hsignature, hin, hcount, htable, hsymbols, hsize, hzero, ho'⟩
  · rintro ⟨hmark, hpe, hsignature, hin, hcount, htable, hsymbols, hsize, hzero, ho'⟩
    refine ⟨_, hmark, ⟨⟩, rfl, _, hpe, _, hsignature, ⟨⟩, rfl, ⟨⟩, hin, _, hcount, _, htable, _,
      hsymbols, _, hsize, ?_⟩
    rw [if_neg hzero]
    exact Option.bind_eq_some_iff.2 ⟨o, ho', by rw [← ho]⟩

theorem Image.exists_mark_of_parse {data : Bytes} {i : Image} (h : Image.parse data = .ok i) :
    ∃ rest, data = 0x4d :: 0x5a :: rest := by
  obtain ⟨header, optional, -, hheader, hoptional, -⟩ :=
    Layout.parse_eq_ok_iff.1 (Image.parse_eq_ok_iff.1 h).1
  obtain ⟨hmark, -⟩ := (Header.read?_eq_some_iff hoptional).1 hheader
  obtain ⟨mark, hslice, hnumber⟩ := Option.map_eq_some_iff.1 hmark
  obtain ⟨⟨-, hlength⟩, rfl⟩ := Bytes.slice?_eq_some_iff.1 hslice
  match data, hlength with
  | a :: b :: rest, _ =>
    have ha := a.toNat_lt
    have hb := b.toNat_lt
    simp only [List.take_succ_cons, List.take_zero, List.drop_zero, Bytes.leNat] at hnumber
    have hfirst : a = 0x4d := UInt8.toNat_inj.1 (by simp; omega)
    have hsecond : b = 0x5a := UInt8.toNat_inj.1 (by simp; omega)
    rw [hfirst, hsecond]
    exact ⟨rest, rfl⟩

/-- Two files that agree in front of an offset, except for the rewritten fields. -/
structure Layout.Agree (l : Layout) (n : Nat) (a b : Bytes) : Prop where
  left_le : n ≤ a.length
  right_le : n ≤ b.length
  getElem? : ∀ k < n, ¬l.Rewritten k → a[k]? = b[k]?

/-- A range of octets that is in front of an offset and has no part of a rewritten field. -/
def Layout.Keeps (l : Layout) (n start size : Nat) : Prop :=
  start + size ≤ n ∧ ∀ k < size, ¬l.Rewritten (start + k)

instance (l : Layout) (n start size : Nat) : Decidable (l.Keeps n start size) :=
  inferInstanceAs (Decidable (_ ∧ _))

namespace Layout

variable {l : Layout} {n start size : Nat} {a b : Bytes}

theorem Agree.slice? (h : l.Agree n a b) (hkeeps : l.Keeps n start size) :
    a.slice? start (start + size) = b.slice? start (start + size) := by
  refine Bytes.slice?_congr (hkeeps.1.trans h.left_le) (hkeeps.1.trans h.right_le) ?_
  intro k hk hk'
  apply h.getElem? k (hk'.trans_le hkeeps.1)
  have hkept := hkeeps.2 (k - start) (by omega)
  rwa [Nat.add_sub_cancel' hk] at hkept

theorem Agree.u16? (h : l.Agree n a b) (hkeeps : l.Keeps n start 2) :
    a.u16? start = b.u16? start := by
  rw [Bytes.u16?, h.slice? hkeeps, Bytes.u16?]

theorem Agree.u32? (h : l.Agree n a b) (hkeeps : l.Keeps n start 4) :
    a.u32? start = b.u32? start := by
  rw [Bytes.u32?, h.slice? hkeeps, Bytes.u32?]

end Layout

/-- The layout's offsets are those of a header. -/
structure Layout.Places (l : Layout) (h : Header) (o : OptionalHeader) : Prop where
  optional_eq : h.optional = some o
  checksum_eq : l.checksumOffset = h.peOffset + optionalHeaderGap + checksumGap
  directory_eq : l.directoryOffset = h.peOffset + optionalHeaderGap
    + OptionalHeader.fixedSize o.wide + certificateDirectoryIndex * directoryEntrySize
  headers_eq : l.sizeOfHeaders = o.sizeOfHeaders

def Header.directoriesEnd (h : Header) (o : OptionalHeader) : Nat :=
  h.peOffset + optionalHeaderGap + OptionalHeader.fixedSize o.wide + 8 * o.directoryCount

section

variable {l : Layout} {h h' : Header} {o o' : OptionalHeader} {n : Nat} {a b : Bytes}

theorem Layout.Places.keeps (hplaces : l.Places h o)
    (hn : l.directoryOffset + directoryEntrySize ≤ n) :
    (∀ start size, start + size ≤ h.peOffset + 88 → l.Keeps n start size) ∧
      l.Keeps n (h.peOffset + optionalHeaderGap + OptionalHeader.fixedSize o.wide - 4) 4 := by
  have hfixed := OptionalHeader.le_fixedSize o.wide
  have hchecksum := hplaces.checksum_eq
  have hdirectory := hplaces.directory_eq
  simp only [optionalHeaderGap, checksumGap, certificateDirectoryIndex, directoryEntrySize]
    at hchecksum hdirectory hn ⊢
  have hfront : ∀ k, ¬l.Rewritten k ↔ ¬(l.checksumOffset ≤ k ∧ k < l.checksumOffset + 4) ∧
      ¬(l.directoryOffset ≤ k ∧ k < l.directoryOffset + 8) := fun k => not_or
  constructor
  · intro start size hle
    refine ⟨by omega, fun k hk => (hfront _).2 ?_⟩
    omega
  · refine ⟨by omega, fun k hk => (hfront _).2 ?_⟩
    omega

theorem Header.read?_congr (hplaces : l.Places h o)
    (hn : l.directoryOffset + directoryEntrySize ≤ n) (hagree : l.Agree n a b)
    (hread : read? a = some h) (hin : h.directoriesEnd o ≤ b.length) : read? b = some h := by
  obtain ⟨hfront, hbetween⟩ := hplaces.keeps hn
  have hfixed := OptionalHeader.le_fixedSize o.wide
  have hdirectory := hplaces.directory_eq
  have hle := hagree.right_le
  rw [read?_eq_some_iff hplaces.optional_eq] at hread ⊢
  obtain ⟨hmark, hpe, hsignature, -, hcount, htable, hsymbols, hsize, hzero, hoptional⟩ := hread
  obtain ⟨magic, hmagic, hkind, hwide, hheaders, hdirectories, hmax, -⟩ :=
    OptionalHeader.read?_eq_some_iff.1 hoptional
  unfold directoriesEnd at hin
  simp only [optionalHeaderGap, certificateDirectoryIndex, directoryEntrySize] at *
  refine ⟨?_, ?_, ?_, ⟨by omega, by omega⟩, ?_, ?_, ?_, ?_, hzero,
    OptionalHeader.read?_eq_some_iff.2 ⟨magic, ?_, hkind, hwide, ?_, ?_, hmax, hin⟩⟩
  · rwa [← hagree.u16? (hfront _ _ (by omega))]
  · rwa [← hagree.u32? (hfront _ _ (by omega))]
  · rwa [← hagree.u32? (hfront _ _ (by omega))]
  · rwa [← hagree.u16? (hfront _ _ (by omega))]
  · rwa [← hagree.u32? (hfront _ _ (by omega))]
  · rwa [← hagree.u32? (hfront _ _ (by omega))]
  · rwa [← hagree.u16? (hfront _ _ (by omega))]
  · rwa [← hagree.u16? (hfront _ _ (by omega))]
  · rwa [← hagree.u32? (hfront _ _ (by omega))]
  · rwa [← hagree.u32? hbetween]

theorem Header.eq_of_read? (hplaces : l.Places h o)
    (hn : l.directoryOffset + directoryEntrySize ≤ n) (hagree : l.Agree n a b)
    (hread : read? a = some h) (hread' : read? b = some h') (ho' : h'.optional = some o') :
    h' = h := by
  obtain ⟨hfront, hbetween⟩ := hplaces.keeps hn
  have hpe : h'.peOffset = h.peOffset := by
    have hleft := ((read?_eq_some_iff hplaces.optional_eq).1 hread).2.1
    have hright := ((read?_eq_some_iff ho').1 hread').2.1
    rw [← hagree.u32? (hfront _ _ (by omega)), hleft, Option.some.injEq] at hright
    exact hright.symm
  have hoptional := ((read?_eq_some_iff hplaces.optional_eq).1 hread).2.2.2.2.2.2.2.2.2
  have hoptional' := ((read?_eq_some_iff ho').1 hread').2.2.2.2.2.2.2.2.2
  rw [hpe] at hoptional'
  obtain ⟨magic, hmagic, -, hwide, -, hcount, -⟩ := OptionalHeader.read?_eq_some_iff.1 hoptional
  obtain ⟨magic', hmagic', -, hwide', -, hcount', -, hin⟩ :=
    OptionalHeader.read?_eq_some_iff.1 hoptional'
  rw [← hagree.u16? (hfront _ _ (by unfold optionalHeaderGap; omega)), hmagic,
    Option.some.injEq] at hmagic'
  rw [← hmagic', ← hwide] at hwide'
  rw [hwide'] at hcount' hin
  rw [← hagree.u32? hbetween, hcount, Option.some.injEq] at hcount'
  have hagain := read?_congr hplaces hn hagree hread (by rwa [directoriesEnd, hcount'])
  rw [hread', Option.some.injEq] at hagain
  exact hagain

end

/-- Two readings of the headers in front of one directory entry find the same offsets; only what
they find in the section headers may differ. -/
theorem Layout.exists_header_of_agree {l m : Layout} {n : Nat} {a b : Bytes}
    (ha : parse a = .ok l) (hb : parse b = .ok m)
    (hn : l.directoryOffset + directoryEntrySize ≤ n) (hagree : l.Agree n a b) :
    ∃ h, Header.read? a = some h ∧ h.sections? a = some l.sections ∧
      h.sections? b = some m.sections ∧ m = { l with sections := m.sections } := by
  obtain ⟨h, o, sections, hread, ho, -, -, hsections, -, rfl⟩ := parse_eq_ok_iff.1 ha
  obtain ⟨h', o', sections', hread', ho', -, -, hsections', -, rfl⟩ := parse_eq_ok_iff.1 hb
  obtain rfl := Header.eq_of_read? ⟨ho, rfl, rfl, rfl⟩ hn hagree hread hread' ho'
  rw [ho, Option.some.injEq] at ho'
  subst ho'
  exact ⟨h', hread, hsections, hsections', rfl⟩

/-- A file that keeps the octets in front of the directory entry has a layout exactly when it still
holds the data directories and the headers, and the section headers can be read in it. -/
theorem Layout.exists_parse_iff_of_agree {l : Layout} {n : Nat} {a b : Bytes} {h : Header}
    {o : OptionalHeader} (ha : parse a = .ok l) (hread : Header.read? a = some h)
    (ho : h.optional = some o) (hn : l.directoryOffset + directoryEntrySize ≤ n)
    (hagree : l.Agree n a b) : (∃ m, parse b = .ok m) ↔
      h.directoriesEnd o ≤ b.length ∧ l.sizeOfHeaders ≤ b.length ∧ (h.sections? b).isSome := by
  obtain ⟨h₁, o₁, sections, hread₁, ho₁, hcount, -, -, hentry, rfl⟩ := parse_eq_ok_iff.1 ha
  cases hread.symm.trans hread₁
  cases ho.symm.trans ho₁
  constructor
  · rintro ⟨m, hm⟩
    obtain ⟨h', o', sections', hread', ho', -, hheaders, hsections', -, -⟩ := parse_eq_ok_iff.1 hm
    obtain rfl := Header.eq_of_read? ⟨ho, rfl, rfl, rfl⟩ hn hagree hread hread' ho'
    cases ho.symm.trans ho'
    have hoptional := ((Header.read?_eq_some_iff ho).1 hread').2.2.2.2.2.2.2.2.2
    obtain ⟨-, -, -, -, -, -, -, hdirectories⟩ := OptionalHeader.read?_eq_some_iff.1 hoptional
    exact ⟨hdirectories, hheaders, by rw [hsections']; rfl⟩
  · rintro ⟨hdirectories, hheaders, hsome⟩
    obtain ⟨sections', hsections'⟩ := Option.isSome_iff_exists.1 hsome
    have hread' := Header.read?_congr ⟨ho, rfl, rfl, rfl⟩ hn hagree hread hdirectories
    exact ⟨⟨_, _, _, sections'⟩, parse_eq_ok_iff.2
      ⟨h, o, sections', hread', ho, hcount, hheaders, hsections', hentry, rfl⟩⟩

theorem mapM_eq_some_iff {α β : Type} {f : α → Option β} {xs : List α} {ys : List β} :
    xs.mapM f = some ys ↔ List.Forall₂ (fun x y => f x = some y) xs ys := by
  induction xs generalizing ys with
  | nil =>
    rw [List.mapM_nil, List.forall₂_nil_left_iff]
    exact ⟨fun h => (Option.some.inj h).symm, fun h => congrArg some h.symm⟩
  | cons x xs ih =>
    rw [List.mapM_cons, List.forall₂_cons_left_iff]
    simp only [Option.bind_eq_bind, Option.bind_eq_some_iff, ih]
    constructor
    · rintro ⟨y, hy, rest, hrest, h⟩
      cases h
      exact ⟨y, rest, hy, hrest, rfl⟩
    · rintro ⟨y, rest, hy, hrest, rfl⟩
      exact ⟨y, hy, rest, hrest, rfl⟩

/-- The offset of a section's raw data in the file, and its size. -/
def Section.place (s : Section) : Nat × Nat := (s.offset, s.size)

def Header.strings (h : Header) : Nat := h.symbolTable + symbolSize * h.symbolCount

def Section.name? (data : Bytes) (strings : Nat) (field : Bytes) : Option String := do
  match ← nameReference? field with
  | none => (upToNul field).toText?
  | some r =>
    if strings + r ≤ data.length then (upToNul (data.drop (strings + r))).toText? else none

/-- The section headers are in front of an offset and hold no rewritten field. -/
def Header.SectionsKept (h : Header) (l : Layout) (n : Nat) : Prop :=
  ∀ k < h.sectionCount,
    l.Keeps n (h.sectionsOffset + sectionHeaderSize * k) sectionHeaderSize

/-- Where a section header refers to a name in the string table, that name and the NUL behind it
are in front of an offset and hold no rewritten field. -/
def Header.NamesKept (h : Header) (l : Layout) (n : Nat) (data : Bytes) : Prop :=
  ∀ k < h.sectionCount,
    match nameReference? ((data.drop (h.sectionsOffset + sectionHeaderSize * k)).take 8) with
    | some (some r) =>
      l.Keeps n (h.strings + r) ((upToNul (data.drop (h.strings + r))).length + 1)
    | _ => True

instance (h : Header) (l : Layout) (n : Nat) : Decidable (h.SectionsKept l n) :=
  inferInstanceAs (Decidable (∀ k < h.sectionCount, _))

instance (h : Header) (l : Layout) (n : Nat) (data : Bytes) :
    Decidable (h.NamesKept l n data) :=
  have (k : Nat) : Decidable (match nameReference? ((data.drop
      (h.sectionsOffset + sectionHeaderSize * k)).take 8) with
    | some (some r) =>
      l.Keeps n (h.strings + r) ((upToNul (data.drop (h.strings + r))).length + 1)
    | _ => True) := by
    split <;> infer_instance
  inferInstanceAs (Decidable (∀ k < h.sectionCount, _))

section

variable {data a b : Bytes} {strings offset n : Nat} {s s' : Section} {l m : Layout} {h : Header}

theorem Section.read?_eq_some_iff :
    read? data strings offset = some s ↔
      ∃ header, data.slice? offset (offset + sectionHeaderSize) = some header ∧
        header.u32? 16 = some s.size ∧ header.u32? 20 = some s.offset ∧
        name? data strings (header.take 8) = some s.name := by
  obtain ⟨name, pointer, size⟩ := s
  unfold read? name?
  simp only [Option.bind_eq_bind, Option.bind_eq_some_iff]
  constructor
  · rintro ⟨header, hheader, size', hsize, pointer', hpointer, reference, hreference, h⟩
    refine ⟨header, hheader, ?_⟩
    cases reference with
    | none =>
      obtain ⟨name', hname, h⟩ := Option.bind_eq_some_iff.1 h
      cases h
      exact ⟨hsize, hpointer, none, hreference, hname⟩
    | some r =>
      dsimp only at h
      split at h
      · next hin =>
        obtain ⟨name', hname, h⟩ := Option.bind_eq_some_iff.1 h
        cases h
        exact ⟨hsize, hpointer, some r, hreference, (if_pos hin).trans hname⟩
      · cases h
  · rintro ⟨header, hheader, hsize, hpointer, reference, hreference, hname⟩
    refine ⟨header, hheader, size, hsize, pointer, hpointer, reference, hreference, ?_⟩
    cases reference with
    | none => exact Option.bind_eq_some_iff.2 ⟨name, hname, rfl⟩
    | some r =>
      dsimp only at hname ⊢
      split at hname
      · next hin =>
        rw [if_pos hin]
        exact Option.bind_eq_some_iff.2 ⟨name, hname, rfl⟩
      · cases hname

theorem Header.sections?_eq_some_iff {sections : List Section} :
    h.sections? data = some sections ↔ h.sectionCount ≤ data.length / sectionHeaderSize ∧
      List.Forall₂ (fun k s => Section.read? data h.strings
        (h.sectionsOffset + sectionHeaderSize * k) = some s) (List.range h.sectionCount)
        sections := by
  unfold sections?
  simp only [Option.bind_eq_bind, Option.bind_eq_some_iff, guard_eq_some_iff]
  rw [← mapM_eq_some_iff]
  exact ⟨fun ⟨_, hcount, hread⟩ => ⟨hcount, hread⟩, fun ⟨hcount, hread⟩ => ⟨⟨⟩, hcount, hread⟩⟩

theorem Header.places_eq (hagree : l.Agree n a b) (hkept : h.SectionsKept l n)
    (ha : h.sections? a = some l.sections) (hb : h.sections? b = some m.sections) :
    m.sections.map Section.place = l.sections.map Section.place := by
  obtain ⟨-, ha⟩ := sections?_eq_some_iff.1 ha
  obtain ⟨-, hb⟩ := sections?_eq_some_iff.1 hb
  replace ha := (List.forall₂_and_left _ _).2 ⟨fun k => List.mem_range.1, ha⟩
  generalize List.range h.sectionCount = ks at ha hb
  generalize l.sections = left at ha
  generalize m.sections = right at hb
  induction ha generalizing right with
  | nil =>
    cases hb
    rfl
  | @cons k s ks left hs _ ih =>
    obtain ⟨s', right, hs', hrest, rfl⟩ := List.forall₂_cons_left_iff.1 hb
    obtain ⟨hk, hs⟩ := hs
    have hslice := hagree.slice? (hkept k hk)
    obtain ⟨header, hheader, hsize, hoffset, -⟩ := Section.read?_eq_some_iff.1 hs
    obtain ⟨header', hheader', hsize', hoffset', -⟩ := Section.read?_eq_some_iff.1 hs'
    rw [hslice, hheader', Option.some.injEq] at hheader
    subst hheader
    rw [hsize, Option.some.injEq] at hsize'
    rw [hoffset, Option.some.injEq] at hoffset'
    rw [List.map_cons, List.map_cons, ih right hrest, Section.place, Section.place, hsize',
      hoffset']

theorem upToNul_congr {u v : Bytes} (hlen : (upToNul u).length < u.length)
    (h : v.take ((upToNul u).length + 1) = u.take ((upToNul u).length + 1)) :
    upToNul v = upToNul u := by
  induction u generalizing v with
  | nil => exact absurd hlen (Nat.not_lt_zero _)
  | cons x u ih =>
    cases v with
    | nil => cases h
    | cons y v =>
      rw [List.take_succ_cons, List.take_succ_cons, List.cons.injEq] at h
      obtain ⟨rfl, h⟩ := h
      unfold upToNul at *
      by_cases hy : y = 0
      · rw [List.takeWhile_cons_of_neg (by simp [hy]), List.takeWhile_cons_of_neg (by simp [hy])]
      · rw [List.takeWhile_cons_of_pos (by simp [hy])] at h hlen
        rw [List.takeWhile_cons_of_pos (by simp [hy]), List.takeWhile_cons_of_pos (by simp [hy]),
          ih (Nat.lt_of_succ_lt_succ hlen) h]

theorem Section.name?_congr {field : Bytes} (hagree : l.Agree n a b)
    (hkept : ∀ r, nameReference? field = some (some r) →
      l.Keeps n (strings + r) ((upToNul (a.drop (strings + r))).length + 1)) :
    name? b strings field = name? a strings field := by
  unfold name?
  cases hreference : nameReference? field with
  | none => rfl
  | some reference =>
    cases reference with
    | none => rfl
    | some r =>
      have hkeeps := hkept r hreference
      have hle := hkeeps.1
      have ha := hagree.left_le
      have hb := hagree.right_le
      have hslice := hagree.slice? hkeeps
      rw [Bytes.slice?_of_le (by omega) (by omega), Bytes.slice?_of_le (by omega) (by omega),
        Option.some.injEq, List.drop_take, List.drop_take, Nat.add_sub_cancel_left] at hslice
      have htext : upToNul (b.drop (strings + r)) = upToNul (a.drop (strings + r)) := by
        refine upToNul_congr ?_ hslice.symm
        rw [List.length_drop]
        omega
      change (if strings + r ≤ b.length then (upToNul (b.drop (strings + r))).toText? else none)
        = if strings + r ≤ a.length then (upToNul (a.drop (strings + r))).toText? else none
      rw [if_pos (by omega), if_pos (by omega), htext]

theorem Header.sections?_congr (hagree : l.Agree n a b) (hkept : h.SectionsKept l n)
    (hnames : h.NamesKept l n a) {sections : List Section} (ha : h.sections? a = some sections) :
    h.sections? b = some sections := by
  rw [sections?_eq_some_iff] at ha ⊢
  obtain ⟨-, ha⟩ := ha
  replace ha := (List.forall₂_and_left _ _).2 ⟨fun k => List.mem_range.1, ha⟩
  refine ⟨?_, ha.imp ?_⟩
  · by_cases hzero : h.sectionCount = 0
    · rw [hzero]
      exact Nat.zero_le _
    · have hlast := (hkept (h.sectionCount - 1) (by omega)).1
      have hle := hagree.right_le
      rw [Nat.le_div_iff_mul_le (by decide)]
      unfold sectionHeaderSize at *
      omega
  · intro k s hs
    obtain ⟨hk, hs⟩ := hs
    obtain ⟨header, hheader, hsize, hoffset, hname⟩ := Section.read?_eq_some_iff.1 hs
    have hslice := hagree.slice? (hkept k hk)
    rw [hheader] at hslice
    refine Section.read?_eq_some_iff.2 ⟨header, hslice.symm, hsize, hoffset, ?_⟩
    rw [← hname]
    refine Section.name?_congr hagree ?_
    intro r hr
    have hfield : header.take 8 = (a.drop (h.sectionsOffset + sectionHeaderSize * k)).take 8 := by
      obtain ⟨-, rfl⟩ := Bytes.slice?_eq_some_iff.1 hheader
      rw [List.drop_take, Nat.add_sub_cancel_left, List.take_take]
      rfl
    have hnamed := hnames k hk
    rw [← hfield, hr] at hnamed
    exact hnamed

end

/-- Everything that the layout is read from is in front of an offset and no part of the rewritten
fields. -/
structure Layout.Settled (l : Layout) (n : Nat) (data : Bytes) : Prop where
  directories_le : ∀ h o, Header.read? data = some h → h.optional = some o → h.directoriesEnd o ≤ n
  sections : ∀ h, Header.read? data = some h → h.SectionsKept l n
  names : ∀ h, Header.read? data = some h → h.NamesKept l n data

theorem Layout.parse_of_agree {l : Layout} {n : Nat} {a b : Bytes} (ha : parse a = .ok l)
    (hn : l.directoryOffset + directoryEntrySize ≤ n) (hagree : l.Agree n a b)
    (hheaders : l.sizeOfHeaders ≤ b.length) (hsettled : l.Settled n a) : parse b = .ok l := by
  obtain ⟨h, o, sections, hread, ho, hcount, -, hsections, hentry, rfl⟩ := parse_eq_ok_iff.1 ha
  have hdirectories := (hsettled.directories_le h o hread ho).trans hagree.right_le
  have hread' := Header.read?_congr ⟨ho, rfl, rfl, rfl⟩ hn hagree hread hdirectories
  have hsections' := Header.sections?_congr hagree (hsettled.sections h hread)
    (hsettled.names h hread) hsections
  exact parse_eq_ok_iff.2 ⟨h, o, sections, hread', ho, hcount, hheaders, hsections', hentry, rfl⟩

end Authenticode.Pe
