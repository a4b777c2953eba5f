import Authenticode.Pe.Image
import Authenticode.Proofs.Bytes
import Authenticode.Proofs.Steps

/-!
# The fields that signing rewrites

Signing stores two header fields anew: the checksum and the directory entry of the
certificate table. This module says where they stand in an image that was parsed,
how the directory entry is read back after it was written, and that the checksum
does not touch it.
-/
namespace Authenticode.Pe

theorem OptionalHeader.le_fixedSize (wide : Bool) : 96 ≤ OptionalHeader.fixedSize wide := by
  unfold OptionalHeader.fixedSize
  split <;> omega

namespace Layout

/-- The positions of the two fields that signing rewrites. -/
def Rewritten (l : Layout) (p : Nat) : Prop :=
  Bytes.Within l.checksumOffset Checksum.fieldLength p ∨
    Bytes.Within l.directoryOffset directoryEntrySize p

instance (l : Layout) (p : Nat) : Decidable (l.Rewritten p) :=
  inferInstanceAs (Decidable (_ ∨ _))

/-- The checksum stands in front of the directory entry, and both within the headers. -/
structure Ordered (l : Layout) : Prop where
  checksum_le : l.checksumOffset + Checksum.fieldLength ≤ l.directoryOffset
  entry_le : l.directoryOffset + directoryEntrySize ≤ l.sizeOfHeaders

theorem Ordered.not_rewritten_of_le {l : Layout} (h : l.Ordered) {p : Nat}
    (hp : l.directoryOffset + directoryEntrySize ≤ p) : ¬l.Rewritten p := by
  have hchecksum := h.checksum_le
  rintro (⟨-, hin⟩ | ⟨-, hin⟩) <;> omega

theorem parse_eq_ok_iff {data : Bytes} {l : Layout} :
    parse data = .ok l ↔ ∃ header optional sections,
      Header.read? data = some header ∧ header.optional = some optional ∧
      certificateDirectoryIndex < optional.directoryCount ∧
      optional.sizeOfHeaders ≤ data.length ∧
      header.sections? data = some sections ∧
      l.directoryOffset + directoryEntrySize ≤ l.sizeOfHeaders ∧
      l = ⟨header.peOffset + optionalHeaderGap + checksumGap,
        header.peOffset + optionalHeaderGap + OptionalHeader.fixedSize optional.wide
          + certificateDirectoryIndex * directoryEntrySize,
        optional.sizeOfHeaders, sections⟩ := by
  constructor
  · intro h
    simp only [parse] at h
    cases hheader : Header.read? data with
    | none => simp [hheader] at h
    | some header =>
      cases hoptional : header.optional with
      | none => simp [hheader, hoptional] at h
      | some optional =>
        simp only [hheader, hoptional] at h
        split at h
        · cases h
        split at h
        · cases h
        cases hsections : header.sections? data with
        | none => simp [hsections] at h
        | some sections =>
          rw [hsections] at h
          cases h
          exact ⟨header, optional, sections, rfl, hoptional, by omega, by omega, hsections,
            by dsimp only; omega, rfl⟩
  · rintro ⟨header, optional, sections, hheader, hoptional, hcount, hsize, hsections, hentry, rfl⟩
    dsimp only at hentry
    simp only [parse, hheader, hoptional, hsections]
    rw [if_neg (by omega), if_neg (by omega)]
    rfl

theorem ordered_of_parse {data : Bytes} {l : Layout} (h : parse data = .ok l) : l.Ordered := by
  obtain ⟨header, optional, sections, -, -, -, -, -, hentry, rfl⟩ := parse_eq_ok_iff.1 h
  refine ⟨?_, hentry⟩
  have hwide := OptionalHeader.le_fixedSize optional.wide
  simp only [checksumGap, Checksum.fieldLength, certificateDirectoryIndex, directoryEntrySize]
  omega

theorem sizeOfHeaders_le_of_parse {data : Bytes} {l : Layout} (h : parse data = .ok l) :
    l.sizeOfHeaders ≤ data.length := by
  obtain ⟨header, optional, sections, -, -, -, hsize, -, -, rfl⟩ := parse_eq_ok_iff.1 h
  exact hsize

end Layout

namespace CertificateDirectory

def Fits (d : CertificateDirectory) : Prop := d.offset < 2 ^ 32 ∧ d.size < 2 ^ 32

@[simp] theorem length_toBytes (d : CertificateDirectory) :
    d.toBytes.length = directoryEntrySize := by
  simp [toBytes, directoryEntrySize]

theorem isEmpty_eq_false_iff {d : CertificateDirectory} :
    d.isEmpty = false ↔ 0 < d.offset ∧ 0 < d.size := by
  simp [isEmpty]
  omega

end CertificateDirectory

namespace Image

open CertificateDirectory

theorem number_eq_ok_iff {data : Bytes} {pos n : Nat} :
    number data pos = .ok n ↔ data.u32? pos = some n := by
  unfold number
  cases data.u32? pos with
  | none => exact ⟨nofun, nofun⟩
  | some m =>
    dsimp only
    rw [Except.ok.injEq, Option.some.injEq]

theorem directory_eq_ok_iff {i : Image} {d : CertificateDirectory} :
    i.directory = .ok d ↔ d.Fits ∧
      i.bytes.slice? i.layout.directoryOffset (i.layout.directoryOffset + directoryEntrySize)
        = some d.toBytes := by
  have hread : i.directory = .ok d ↔ i.bytes.u32? i.layout.directoryOffset = some d.offset ∧
      i.bytes.u32? (i.layout.directoryOffset + 4) = some d.size := by
    simp only [directory, Except.bind_eq_ok_iff, number_eq_ok_iff]
    constructor
    · rintro ⟨o, ho, n, hn, hd⟩
      cases hd
      exact ⟨ho, hn⟩
    · rintro ⟨ho, hn⟩
      exact ⟨_, ho, _, hn, rfl⟩
  rw [hread, Bytes.u32?_eq_some_iff, Bytes.u32?_eq_some_iff, toBytes, Fits]
  have happend := Bytes.slice?_eq_some_append_iff (b := i.bytes) (s := Bytes.ofLe 4 d.offset)
    (t := Bytes.ofLe 4 d.size) (i := i.layout.directoryOffset)
  simp only [Bytes.length_ofLe] at happend
  rw [directoryEntrySize, show i.layout.directoryOffset + 8 = i.layout.directoryOffset + 4 + 4
    from rfl, happend]
  tauto

theorem directory_congr {i j : Image} (hlayout : i.layout = j.layout)
    (h : i.bytes.slice? i.layout.directoryOffset (i.layout.directoryOffset + directoryEntrySize)
      = j.bytes.slice? i.layout.directoryOffset (i.layout.directoryOffset + directoryEntrySize))
    {d : CertificateDirectory} : i.directory = .ok d ↔ j.directory = .ok d := by
  rw [directory_eq_ok_iff, directory_eq_ok_iff, h, hlayout]

theorem fits_of_directory {i : Image} {d : CertificateDirectory} (h : i.directory = .ok d) :
    d.Fits := (directory_eq_ok_iff.1 h).1

theorem entry_le_of_directory {i : Image} {d : CertificateDirectory} (h : i.directory = .ok d) :
    i.layout.directoryOffset + directoryEntrySize ≤ i.length :=
  (Bytes.slice?_eq_some_iff.1 (directory_eq_ok_iff.1 h).2).1.2

theorem exists_directory {i : Image}
    (h : i.layout.directoryOffset + directoryEntrySize ≤ i.length) :
    ∃ d, i.directory = .ok d := by
  unfold directoryEntrySize at h
  have hoffset : i.layout.directoryOffset + 4 ≤ i.bytes.length := by
    unfold length at h
    omega
  have hsize : i.layout.directoryOffset + 4 + 4 ≤ i.bytes.length := h
  obtain ⟨o, ho⟩ := Option.isSome_iff_exists.1 (Bytes.u32?_isSome hoffset)
  obtain ⟨n, hn⟩ := Option.isSome_iff_exists.1 (Bytes.u32?_isSome hsize)
  refine ⟨⟨o, n⟩, ?_⟩
  rw [directory, number_eq_ok_iff.2 ho, number_eq_ok_iff.2 hn]
  rfl

theorem parse_eq_ok_iff {data : Bytes} {i : Image} :
    parse data = .ok i ↔ Layout.parse data = .ok i.layout ∧ i.bytes = data ∧
      (∃ d, i.directory = .ok d ∧ (d.isEmpty = false → d.stop ≤ i.length)) := by
  constructor
  · intro h
    simp only [parse] at h
    obtain ⟨l, hl, h⟩ := Except.bind_eq_ok_iff.1 h
    obtain ⟨d, hd, h⟩ := Except.bind_eq_ok_iff.1 h
    split at h
    · cases h
    · next hinside =>
      cases h
      refine ⟨hl, rfl, d, hd, fun he => Nat.not_lt.1 fun hlt => hinside ?_⟩
      rw [he]
      exact decide_eq_true hlt
  · obtain ⟨bytes, l⟩ := i
    rintro ⟨hl, rfl, d, hd, hinside⟩
    have hin : ¬(!d.isEmpty && bytes.length < d.stop) = true := by
      intro hout
      rw [Bool.and_eq_true, Bool.not_eq_true', decide_eq_true_eq] at hout
      exact Nat.not_lt.2 (hinside hout.1) hout.2
    simp only [parse]
    rw [hl]
    change ((Image.directory ⟨bytes, l⟩) >>= fun dir => _) = _
    rw [hd]
    exact if_neg hin

/-- The least image with a certificate directory: its entry, section headers with these offsets
and sizes, and the octets behind the headers. -/
def least (d : CertificateDirectory) (sections : List (Nat × Nat)) (behind : Bytes) : Image where
  bytes := [0x4d, 0x5a] ++ Bytes.zeros 58 ++ Bytes.ofLe 4 64
    ++ [0x50, 0x45, 0, 0, 0x4c, 0x01] ++ Bytes.ofLe 2 sections.length ++ Bytes.zeros 12
    ++ Bytes.ofLe 2 136 ++ Bytes.zeros 2
    ++ [0x0b, 0x01] ++ Bytes.zeros 58 ++ Bytes.ofLe 4 (224 + sectionHeaderSize * sections.length)
    ++ Bytes.zeros 28 ++ Bytes.ofLe 4 5 ++ Bytes.zeros 32 ++ d.toBytes
    ++ sections.flatMap (fun (offset, size) =>
      Bytes.zeros 16 ++ Bytes.ofLe 4 size ++ Bytes.ofLe 4 offset ++ Bytes.zeros 16)
    ++ behind
  layout := ⟨152, 216, 224 + sectionHeaderSize * sections.length,
    sections.map fun (offset, size) => ⟨"", offset, size⟩⟩

end Image

end Authenticode.Pe
