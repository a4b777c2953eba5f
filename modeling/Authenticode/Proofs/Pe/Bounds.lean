import Authenticode.Proofs.Pe.Coverage
import Authenticode.Proofs.Pe.Editing

/-!
# Accesses outside the octets

An image keeps the layout it was parsed with, while edits cut and overwrite its
octets at offsets that stand in the file. What keeps every access inside is that
the certificate table leaves the directory entry alone and, where it ends the
file, stands behind the headers: cutting it off then never reaches them. Each call
keeps this, whether it succeeds or fails.
-/
namespace Authenticode.Pe.Image

/-- The certificate table does not overlap its own directory entry, and where it ends the file it
stands behind the headers. -/
def TableDetached (i : Image) : Prop :=
  ∀ d, i.directory = .ok d → d.isEmpty = false →
    (d.stop = i.length → i.layout.sizeOfHeaders ≤ d.offset) ∧
      (d.stop ≤ i.layout.directoryOffset ∨
        i.layout.directoryOffset + directoryEntrySize ≤ d.offset)

/-- A statement about the directory entry, where there is one, can be checked. -/
instance (i : Image) : Decidable i.TableDetached :=
  match h : i.directory with
  | .ok d => decidable_of_iff (d.isEmpty = false →
      (d.stop = i.length → i.layout.sizeOfHeaders ≤ d.offset) ∧
        (d.stop ≤ i.layout.directoryOffset ∨
          i.layout.directoryOffset + directoryEntrySize ≤ d.offset))
      ⟨fun hd d' hd' => by cases h.symm.trans hd'; exact hd, fun hd => hd d h⟩
  | .error _ => .isTrue fun d hd => by cases h.symm.trans hd

/-- The headers and the table are inside the octets. -/
structure Inside (i : Image) : Prop where
  ordered : i.layout.Ordered
  headers_le : i.layout.sizeOfHeaders ≤ i.length
  stop_le : ∀ d, i.directory = .ok d → d.isEmpty = false → d.stop ≤ i.length

/-- What every call keeps: headers and table are inside, and the table is detached. -/
structure Sound (i : Image) : Prop extends i.Inside where
  detached : i.TableDetached

inductive Call
  | clear
  | grow (amount : Nat)
  | write (table : Bytes)
  | replace (table : Bytes)
  | updateChecksum
  | digest (a : HashAlgorithm) (o : DigestOptions)

namespace Call

def edit : Call → Edit Unit
  | clear => discard clearTable
  | grow amount => growTable amount
  | write table => writeTable table
  | replace table => discard (replaceTable table)
  | updateChecksum => Image.updateChecksum
  | digest a o => do discard (ofExcept ((← get).digest a o))

def answer (c : Call) (i : Image) : Except Error Unit :=
  match c.edit i with
  | .ok _ _ => .ok ()
  | .error f _ => .error f

def after (c : Call) (i : Image) : Image :=
  match c.edit i with
  | .ok _ j => j
  | .error _ j => j

theorem after_of_ok {c : Call} {i j : Image} (h : c.edit i = .ok () j) : c.after i = j := by
  rw [after, h]

theorem after_of_error {c : Call} {i j : Image} {f : Error} (h : c.edit i = .error f j) :
    c.after i = j := by
  rw [after, h]

/-- Whether a call asks for no more octets than a byte string can have. -/
def Holdable (i : Image) : Call → Prop
  | grow amount => align8 i.length + amount ≤ maxLength
  | _ => True

end Call

/-- The answers to calls that are made in turn; a failure does not end them. -/
def answers : List Call → Image → List (Except Error Unit)
  | [], _ => []
  | c :: cs, i => c.answer i :: answers cs (c.after i)

/-- Whether none of the calls asks for more octets than a byte string can have. -/
def Holdable : List Call → Image → Prop
  | [], _ => True
  | c :: cs, i => c.Holdable i ∧ Holdable cs (c.after i)

/-- The result is no abort, and its image has the property. -/
def Keeps (p : Image → Prop) {α : Type} : EStateM.Result Error Image α → Prop
  | .ok _ j => p j
  | .error f j => f ≠ .aborted ∧ p j

variable {i : Image} {d : CertificateDirectory} {p q : Image → Prop}

theorem Keeps.mono {α : Type} {r : EStateM.Result Error Image α} (h : Keeps p r)
    (hpq : ∀ j, p j → q j) : Keeps q r := by
  cases r with
  | ok a j => exact hpq j h
  | error f j => exact ⟨h.1, hpq j h.2⟩

theorem Keeps.discard {α : Type} {edit : Edit α} (h : Keeps p (edit i)) :
    Keeps p ((discard edit : Edit Unit) i) := by
  cases hresult : edit i with
  | ok a j =>
    rw [hresult] at h
    rw [Step.discard_of_ok hresult]
    exact h
  | error f j =>
    rw [hresult] at h
    rw [Step.discard_of_error hresult]
    exact h

theorem Keeps.call {c : Call} (h : Keeps p (c.edit i)) :
    c.answer i ≠ .error .aborted ∧ p (c.after i) := by
  unfold Call.answer Call.after
  cases hresult : c.edit i with
  | ok _ j =>
    rw [hresult] at h
    exact ⟨nofun, h⟩
  | error f j =>
    rw [hresult] at h
    refine ⟨?_, h.2⟩
    intro hf
    cases hf
    exact h.1 rfl

theorem answers_ne_aborted
    (hstep : ∀ (j : Image) (c : Call), p j → c.Holdable j → Keeps p (c.edit j)) :
    ∀ calls i, p i → Holdable calls i → ∀ r ∈ answers calls i, r ≠ .error .aborted := by
  intro calls
  induction calls with
  | nil =>
    intro i _ _ r hr
    cases hr
  | cons c cs ih =>
    intro i hi hcalls
    obtain ⟨hc, hcs⟩ := hcalls
    obtain ⟨hanswer, hafter⟩ := (hstep i c hi hc).call
    exact List.forall_mem_cons.2 ⟨hanswer, ih _ hafter hcs⟩

theorem Inside.entry_le (h : i.Inside) :
    i.layout.directoryOffset + directoryEntrySize ≤ i.length :=
  h.ordered.entry_le.trans h.headers_le

theorem Inside.checksum_le (h : i.Inside) :
    i.layout.checksumOffset + Checksum.fieldLength ≤ i.length := by
  have hchecksum := h.ordered.checksum_le
  have hentry := h.entry_le
  omega

/-- Other octets leave an image sound when the headers stay, the entry reads as before, and its
table is still inside and ends the file only if it did. -/
theorem Sound.of_entry_eq (h : i.Sound) {b : Bytes} (hheaders : i.layout.sizeOfHeaders ≤ b.length)
    (hentry : b.slice? i.layout.directoryOffset (i.layout.directoryOffset + directoryEntrySize)
      = i.bytes.slice? i.layout.directoryOffset (i.layout.directoryOffset + directoryEntrySize))
    (htable : ∀ d, i.directory = .ok d → d.isEmpty = false →
      d.stop ≤ b.length ∧ (d.stop = b.length → d.stop = i.length)) :
    (i.withBytes b).Sound := by
  have hread : ∀ d, (i.withBytes b).directory = .ok d ↔ i.directory = .ok d :=
    fun d => directory_withBytes hentry
  refine ⟨⟨h.ordered, hheaders, ?_⟩, ?_⟩
  · intro d hd he
    exact (htable d ((hread d).1 hd) he).1
  · intro d hd he
    have hdetached := h.detached d ((hread d).1 hd) he
    exact ⟨fun hstop => hdetached.1 ((htable d ((hread d).1 hd) he).2 hstop), hdetached.2⟩

theorem Sound.of_agreeOff (h : i.Sound) {b : Bytes} {p : Nat → Prop}
    (hagree : Bytes.AgreeOff p b i.bytes)
    (hp : ∀ k, i.layout.directoryOffset ≤ k →
      k < i.layout.directoryOffset + directoryEntrySize → ¬p k) : (i.withBytes b).Sound := by
  have hlen : b.length = i.length := hagree.1
  refine h.of_entry_eq (hlen ▸ h.headers_le) (hagree.slice?_eq hp) ?_
  intro d hd he
  exact ⟨hlen ▸ h.stop_le d hd he, fun hstop => hstop.trans hlen⟩

theorem Sound.of_append (h : i.Sound) (tail : Bytes) : (i.withBytes (i.bytes ++ tail)).Sound := by
  have hentry : i.layout.directoryOffset + directoryEntrySize ≤ i.bytes.length := h.entry_le
  have hlen : (i.bytes ++ tail).length = i.length + tail.length := List.length_append
  refine h.of_entry_eq (by have := h.headers_le; omega) (Bytes.slice?_append_left hentry tail) ?_
  intro d hd he
  have hstop := h.stop_le d hd he
  exact ⟨by omega, fun hend => by omega⟩

theorem Sound.of_withDirectory (hordered : i.layout.Ordered)
    (hheaders : i.layout.sizeOfHeaders ≤ i.length) (hfits : d.Fits)
    (htable : d.isEmpty = false → i.layout.sizeOfHeaders ≤ d.offset ∧ d.stop ≤ i.length) :
    (i.withDirectory d).Sound := by
  have hentry := hordered.entry_le.trans hheaders
  have hread := directory_withDirectory hentry hfits
  have hlen := length_withDirectory hentry d
  refine ⟨⟨hordered, hlen ▸ hheaders, ?_⟩, ?_⟩
  · intro d' hd he
    cases hread.symm.trans hd
    exact hlen ▸ (htable he).2
  · intro d' hd he
    cases hread.symm.trans hd
    exact ⟨fun _ => (htable he).1, .inr (hordered.entry_le.trans (htable he).1)⟩

theorem Sound.updateChecksum (h : i.Sound) : Keeps Sound (updateChecksum i) := by
  have hin : i.layout.checksumOffset + Checksum.fieldLength ≤ i.bytes.length := h.checksum_le
  rw [updateChecksum_of_le hin]
  set sum := Bytes.ofLe Checksum.fieldLength (Checksum.compute i.bytes i.layout.checksumOffset)
  have hsum : i.layout.checksumOffset + sum.length ≤ i.bytes.length := by
    rwa [Bytes.length_ofLe]
  apply h.of_agreeOff (Bytes.agreeOff_overwrite hsum)
  intro k hk _ hwithin
  have hchecksum := h.ordered.checksum_le
  rw [Bytes.Within, Bytes.length_ofLe] at hwithin
  omega

theorem Sound.withoutTable (h : i.Sound) (hd : i.directory = .ok d) (he : d.isEmpty = false) :
    (i.withoutTable d).Sound := by
  have hcleared : (i.withDirectory .none).Sound :=
    .of_withDirectory h.ordered h.headers_le ⟨by decide, by decide⟩ nofun
  unfold Image.withoutTable
  split
  · next hstop =>
    have hoffset := (h.detached d hd he).1 hstop
    have hlen : (i.withDirectory .none).bytes.length = i.length := length_withDirectory h.entry_le _
    have hle : d.offset ≤ i.length := hstop ▸ Nat.le_add_right _ _
    have hentry := h.ordered.entry_le
    refine hcleared.of_entry_eq ?_ ?_ ?_
    · rw [List.length_take]
      exact Nat.le_min.2 ⟨hoffset, by rw [hlen]; exact h.headers_le⟩
    · refine Bytes.slice?_congr ?_ ?_ ?_
      · rw [List.length_take, layout_withDirectory]
        omega
      · rw [layout_withDirectory]
        omega
      · intro k _ hk
        rw [layout_withDirectory] at hk
        rw [List.getElem?_take, if_pos (by omega)]
    · intro d' hd' he'
      rw [directory_withDirectory h.entry_le ⟨by decide, by decide⟩] at hd'
      cases hd'
      cases he'
  · exact hcleared

theorem Keeps.clearTable (hd : i.directory = .ok d) (he : d.isEmpty = false)
    (h : Keeps p (Image.updateChecksum (i.withoutTable d))) : Keeps p (Image.clearTable i) := by
  rw [clearTable_of_table hd he]
  cases hupdate : Image.updateChecksum (i.withoutTable d) with
  | ok _ j =>
    rw [hupdate] at h
    exact h
  | error f j =>
    rw [hupdate] at h
    exact h

theorem Sound.clearTable (h : i.Sound) : Keeps Sound (clearTable i) := by
  obtain ⟨d, hd⟩ := exists_directory h.entry_le
  cases he : d.isEmpty with
  | true =>
    rw [clearTable_of_isEmpty hd he]
    exact h
  | false =>
    have hwithout := h.withoutTable hd he
    exact .clearTable hd he hwithout.updateChecksum

/-- Where the table is made to end the file, the image is sound, the table stands behind the
headers, and the entry that is still stored is that table's or empty. -/
theorem Sound.tailDirectory (h : i.Sound) :
    match tailDirectory i with
    | .ok tail j => j.Sound ∧ j.layout = i.layout ∧ tail.stop = j.length ∧
        tail.offset < 2 ^ 32 ∧ i.layout.sizeOfHeaders ≤ tail.offset ∧
        j.length ≤ align8 i.length ∧
        ∀ d, j.directory = .ok d → d.isEmpty = false → d = tail
    | .error f j => f ≠ .aborted ∧ j.Sound := by
  obtain ⟨d, hd⟩ := exists_directory h.entry_le
  cases he : d.isEmpty with
  | true =>
    have hpadded : i.padded.Sound := by
      have happend := h.of_append (Bytes.zeros (align8 i.length - i.length))
      rwa [← bytes_padded] at happend
    rw [tailDirectory_of_isEmpty hd he]
    by_cases hnarrow : align8 i.length < 2 ^ 32
    · rw [narrow_of_lt hnarrow]
      refine ⟨hpadded, rfl, i.length_padded.symm, hnarrow,
        h.headers_le.trans (Bytes.le_align8 _), i.length_padded.le, ?_⟩
      intro d' hd' he'
      have hentry : i.layout.directoryOffset + directoryEntrySize ≤ i.bytes.length := h.entry_le
      have hslice := Bytes.slice?_append_left (i := i.layout.directoryOffset) hentry
        (Bytes.zeros (align8 i.length - i.length))
      rw [← bytes_padded] at hslice
      have hread : i.padded.directory = .ok d' ↔ i.directory = .ok d' :=
        directory_withBytes hslice
      cases hd.symm.trans (hread.1 hd')
      rw [he] at he'
      cases he'
    · rw [narrow_of_le (Nat.not_lt.1 hnarrow)]
      exact ⟨nofun, hpadded⟩
  | false =>
    rw [tailDirectory_of_table hd he]
    by_cases hstop : d.stop = i.length
    · rw [if_pos hstop]
      refine ⟨h, rfl, hstop, (fits_of_directory hd).1, (h.detached d hd he).1 hstop,
        Bytes.le_align8 _, ?_⟩
      intro d' hd' _
      cases hd.symm.trans hd'
      rfl
    · rw [if_neg hstop]
      exact ⟨nofun, h⟩

theorem Sound.growTable (h : i.Sound) {amount : Nat}
    (hamount : align8 i.length + amount ≤ maxLength) : Keeps Sound (growTable amount i) := by
  by_cases hzero : amount = 0
  · rw [hzero, growTable_zero]
    exact h
  have htail := h.tailDirectory
  cases hresult : Image.tailDirectory i with
  | error f j =>
    rw [growTable_of_tail_error hzero hresult]
    rwa [hresult] at htail
  | ok tail j =>
    rw [hresult] at htail
    obtain ⟨hj, hlayout, hstop, hoffset, hbehind, hle, -⟩ := htail
    have hlen : tail.offset + (tail.size + amount) = j.length + amount := by
      rw [← hstop, CertificateDirectory.stop]
      omega
    rw [growTable_of_tail hzero hresult (by omega), hlen,
      Bytes.resize_of_le (by unfold length; omega)]
    have hgrown := hj.of_append (Bytes.zeros (j.length + amount - j.bytes.length))
    by_cases hnarrow : tail.size + amount < 2 ^ 32
    · rw [narrow_of_lt hnarrow]
      dsimp only
      rw [setDirectory_of_le hgrown.entry_le]
      refine .of_withDirectory hgrown.ordered hgrown.headers_le ⟨hoffset, hnarrow⟩ ?_
      intro _
      refine ⟨hlayout ▸ hbehind, ?_⟩
      rw [length_withBytes, List.length_append, Bytes.length_zeros, CertificateDirectory.stop, hlen]
      unfold length
      omega
    · rw [narrow_of_le (Nat.not_lt.1 hnarrow)]
      exact ⟨nofun, hgrown⟩

theorem Sound.writeTable (h : i.Sound) (table : Bytes) : Keeps Sound (writeTable table i) := by
  obtain ⟨d, hd⟩ := exists_directory h.entry_le
  by_cases hfits : table.length ≤ d.reserved
  · rw [writeTable_of_le hd hfits (h.stop_le d hd)]
    cases he : d.isEmpty with
    | true => exact h
    | false =>
      have hlen : (table.resize d.size).length = d.size := Bytes.length_resize _ _
      have hstop := h.stop_le d hd he
      have hin : d.offset + (table.resize d.size).length ≤ i.bytes.length := by
        rw [hlen]
        exact hstop
      apply h.of_agreeOff (Bytes.agreeOff_overwrite hin)
      intro k hk hk' hwithin
      have hoff := (h.detached d hd he).2
      rw [Bytes.Within, hlen] at hwithin
      unfold CertificateDirectory.stop at hoff
      omega
  · rw [writeTable_of_lt hd (Nat.not_le.1 hfits)]
    exact ⟨nofun, h⟩

theorem Sound.replaceTable (h : i.Sound) (table : Bytes) : Keeps Sound (replaceTable table i) := by
  obtain ⟨d, hd⟩ := exists_directory h.entry_le
  by_cases htable : table = []
  · subst htable
    rw [replaceTable_nil hd]
    split
    · exact h
    · exact h.clearTable
  have htail := h.tailDirectory
  cases hresult : Image.tailDirectory i with
  | error f j =>
    rw [replaceTable_of_tail_error hd htable hresult]
    rwa [hresult] at htail
  | ok tail j =>
    rw [hresult] at htail
    obtain ⟨hj, hlayout, hstop, hoffset, hbehind, -, hstored⟩ := htail
    have hordered := hlayout ▸ hj.ordered
    have hcut : (j.bytes.take tail.offset).length = tail.offset := by
      rw [List.length_take]
      unfold CertificateDirectory.stop length at hstop
      omega
    have hlen : (j.bytes.take tail.offset ++ table).length = tail.offset + table.length := by
      rw [List.length_append, hcut]
    rw [replaceTable_of_tail hd htable hresult]
    by_cases hnarrow : table.length < 2 ^ 32
    · rw [narrow_of_lt hnarrow]
      have hentry := hordered.entry_le
      dsimp only
      rw [setDirectory_of_le (by rw [length_withBytes, hlen, layout_withBytes, hlayout]; omega)]
      refine .of_withDirectory hj.ordered ?_ ⟨hoffset, hnarrow⟩ ?_
      · rw [length_withBytes, hlen, layout_withBytes, hlayout]
        omega
      · intro _
        exact ⟨hlayout ▸ hbehind, by rw [length_withBytes, hlen]; rfl⟩
    · rw [narrow_of_le (Nat.not_lt.1 hnarrow)]
      refine ⟨nofun, hj.of_entry_eq (by rw [hlen, hlayout]; omega) ?_ ?_⟩
      · refine Bytes.slice?_congr ?_ hj.entry_le ?_
        · have hentry := hordered.entry_le
          rw [hlen, hlayout]
          omega
        · intro k _ hk
          have hentry := hordered.entry_le
          rw [hlayout] at hk
          rw [List.getElem?_append_left (by omega), List.getElem?_take, if_pos (by omega)]
      · intro d' hd' he'
        cases hstored d' hd' he'
        have hsize := (fits_of_directory hd').2
        rw [hlen, CertificateDirectory.stop]
        exact ⟨by omega, fun hend => by omega⟩

theorem Inside.digest_ne_aborted (h : i.Inside) (a : HashAlgorithm) (o : DigestOptions) :
    i.digest a o ≠ .error .aborted := by
  obtain ⟨d, hd⟩ := exists_directory h.entry_le
  have hend : i.dataEnd d ≤ i.length := by
    unfold dataEnd
    cases he : d.isEmpty with
    | true => exact Nat.le_refl _
    | false => exact (Nat.le_add_right _ _).trans (h.stop_le d hd he)
  by_cases hsections : i.layout.SectionsWithin i.length
  · rw [digest, coverage_eq h.ordered h.headers_le hsections hd hend]
    exact nofun
  · obtain ⟨name, hname⟩ := coverage_of_not_within (o := o) h.ordered h.headers_le hsections
    rw [digest, hname]
    exact nofun

theorem Inside.keeps_digest (h : i.Inside) (hi : p i) (a : HashAlgorithm) (o : DigestOptions) :
    Keeps p ((Call.digest a o).edit i) := by
  have hdigest := h.digest_ne_aborted a o
  change Keeps p ((discard (ofExcept (i.digest a o)) : Edit Unit) i)
  cases hresult : i.digest a o with
  | ok _ => exact hi
  | error f =>
    refine ⟨?_, hi⟩
    rintro rfl
    exact hdigest hresult

/-- Every call keeps an image sound. -/
theorem Sound.edit (h : i.Sound) {c : Call} (hc : c.Holdable i) : Keeps Sound (c.edit i) := by
  cases c with
  | clear => exact h.clearTable.discard
  | grow amount => exact h.growTable hc
  | write table => exact h.writeTable table
  | replace table => exact (h.replaceTable table).discard
  | updateChecksum => exact h.updateChecksum
  | digest a o => exact h.keeps_digest h a o

theorem inside_of_parse {data : Bytes} (hparse : parse data = .ok i) : i.Inside := by
  obtain ⟨hlayout, hbytes, d, hd, hinside⟩ := parse_eq_ok_iff.1 hparse
  refine ⟨Layout.ordered_of_parse hlayout, ?_, ?_⟩
  · rw [length, hbytes]
    exact Layout.sizeOfHeaders_le_of_parse hlayout
  · intro d' hd'
    cases hd.symm.trans hd'
    exact hinside

end Authenticode.Pe.Image
