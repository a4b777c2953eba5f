import Authenticode.Proofs.Pe.Editing

/-!
# Growing the certificate table

Growing is the one edit that makes an image longer. It puts zeros behind the octets,
first those that bring a new table to its alignment and then those of the table, and
stores the new directory entry; what stood in the image before is still there. This
holds of every image whose table can grow, wherever that table came from. A table that is
there already is not moved, so only a new one is certain to start at an aligned place:
`aligned_iff_of_growTable`.
-/
namespace Authenticode.Pe.Image

variable {i j : Image} {d e tail : CertificateDirectory} {amount filling : Nat}

/-- Where a table that ends the image starts: an image without one is filled up first. -/
def tableStart (i : Image) (d : CertificateDirectory) : Nat :=
  if d.isEmpty then align8 i.length else d.offset

theorem tableStart_of_isEmpty (he : d.isEmpty = true) : i.tableStart d = align8 i.length :=
  if_pos he

theorem tableStart_of_table (he : d.isEmpty = false) : i.tableStart d = d.offset :=
  if_neg (by rw [he]; exact Bool.false_ne_true)

theorem reserved_of_isEmpty (he : d.isEmpty = true) : d.reserved = 0 := if_pos he

/-- The image was filled up with zeros to where its table stops, the table's start and size being
those that its own entry `d` had. -/
structure Fills (i : Image) (d tail : CertificateDirectory) (filling : Nat) : Prop where
  entry : i.directory = .ok d
  fits : tail.Fits
  tail_eq : tail = ⟨i.tableStart d, d.reserved⟩
  stop_eq : tail.stop = i.length + filling
  ends : d.isEmpty = false → d.stop = i.length

theorem Fills.offset_le (h : i.Fills d tail filling) :
    tail.offset ≤ (i.bytes ++ Bytes.zeros filling).length := by
  have hstop := h.stop_eq
  rw [CertificateDirectory.stop, length] at hstop
  rw [List.length_append, Bytes.length_zeros]
  omega

theorem fills_of_tailDirectory (h : tailDirectory i = .ok tail j) :
    ∃ d filling, i.Fills d tail filling ∧ j = i.withBytes (i.bytes ++ Bytes.zeros filling) := by
  obtain ⟨d, hd⟩ := exists_directory_of_tailDirectory h
  cases he : d.isEmpty with
  | true =>
    rw [tailDirectory_of_isEmpty hd he] at h
    by_cases hnarrow : align8 i.length < 2 ^ 32
    · rw [narrow_of_lt hnarrow] at h
      cases h
      have hle := Bytes.le_align8 i.length
      refine ⟨d, align8 i.length - i.length, ⟨hd, ⟨hnarrow, Nat.two_pow_pos 32⟩, ?_, ?_, ?_⟩, ?_⟩
      · rw [tableStart_of_isEmpty he, reserved_of_isEmpty he]
      · rw [CertificateDirectory.stop]
        dsimp only
        omega
      · exact fun hnone => absurd (he.symm.trans hnone) Bool.noConfusion
      · rw [← bytes_padded]
        rfl
    · rw [narrow_of_le (Nat.not_lt.1 hnarrow)] at h
      cases h
  | false =>
    rw [tailDirectory_of_table hd he] at h
    by_cases hstop : d.stop = i.length
    · rw [if_pos hstop] at h
      cases h
      refine ⟨tail, 0, ⟨hd, fits_of_directory hd, ?_, hstop, fun _ => hstop⟩, ?_⟩
      · rw [tableStart_of_table he, reserved_of_table he]
      · exact congrArg i.withBytes (List.append_nil i.bytes).symm
    · rw [if_neg hstop] at h
      cases h

/-- The table of an image grew: zeros stand behind the octets, and the entry is stored anew. -/
structure Grows (i : Image) (amount : Nat) (d e : CertificateDirectory) (j : Image) : Prop where
  entry : i.directory = .ok d
  fits : e.Fits
  entry_eq : e = ⟨i.tableStart d, d.reserved + amount⟩
  ends : d.isEmpty = false → d.stop = i.length
  image_eq : ∃ filling, e.stop = i.length + filling ∧
    j = (i.withBytes (i.bytes ++ Bytes.zeros filling)).withDirectory e

theorem growTable_of_fills (hamount : amount ≠ 0) (hfills : i.Fills d tail filling)
    (htail : tailDirectory i = .ok tail (i.withBytes (i.bytes ++ Bytes.zeros filling)))
    (hsize : d.reserved + amount < 2 ^ 32) :
    growTable amount i
      = .ok () ((i.withBytes (i.bytes ++ Bytes.zeros (filling + amount))).withDirectory
          ⟨i.tableStart d, d.reserved + amount⟩) := by
  obtain ⟨hd, ⟨hstart, -⟩, rfl, hstop, -⟩ := hfills
  rw [CertificateDirectory.stop] at hstop
  dsimp only at hstop hstart
  have hlimit : i.tableStart d + (d.reserved + amount) ≤ maxLength := by
    rw [maxLength]
    omega
  have hbytes : (i.bytes ++ Bytes.zeros filling).resize
      (i.tableStart d + (d.reserved + amount)) = i.bytes ++ Bytes.zeros (filling + amount) := by
    have hlength : (i.bytes ++ Bytes.zeros filling).length = i.length + filling := by
      rw [List.length_append, Bytes.length_zeros, length]
    rw [Bytes.resize_of_le (by omega), hlength, List.append_assoc, Bytes.zeros_append,
      show filling + (i.tableStart d + (d.reserved + amount) - (i.length + filling))
        = filling + amount by omega]
  rw [growTable_of_tail hamount htail hlimit, narrow_of_lt hsize, bytes_withBytes, hbytes]
  refine setDirectory_of_le ?_
  rw [layout_withBytes, layout_withBytes, length_withBytes, List.length_append]
  exact (entry_le_of_directory hd).trans (Nat.le_add_right _ _)

theorem grows_of_growTable (hamount : amount ≠ 0) (h : growTable amount i = .ok () j) :
    ∃ d e, i.Grows amount d e j := by
  cases htail : tailDirectory i with
  | error f k =>
    rw [growTable_of_tail_error hamount htail] at h
    cases h
  | ok tail k =>
    obtain ⟨d, filling, hfills, rfl⟩ := fills_of_tailDirectory htail
    by_cases hsize : d.reserved + amount < 2 ^ 32
    · rw [growTable_of_fills hamount hfills htail hsize] at h
      cases h
      obtain ⟨hd, ⟨hstart, -⟩, rfl, hstop, hends⟩ := hfills
      refine ⟨d, ⟨i.tableStart d, d.reserved + amount⟩, hd, ⟨hstart, hsize⟩, rfl, hends,
        filling + amount, ?_, rfl⟩
      rw [CertificateDirectory.stop] at hstop ⊢
      dsimp only at hstop ⊢
      omega
    · rw [growTable_of_tail hamount htail (le_maxLength_of_growTable hamount htail h),
        hfills.tail_eq, narrow_of_le (Nat.not_lt.1 hsize)] at h
      cases h

/-- A table grows when it ends the image, or there is none, and the new start and size fit the
entry. -/
theorem exists_growTable_iff (hamount : amount ≠ 0) :
    (∃ j, growTable amount i = .ok () j) ↔ ∃ d, i.directory = .ok d ∧
      (d.isEmpty = false → d.stop = i.length) ∧ i.tableStart d < 2 ^ 32 ∧
      d.reserved + amount < 2 ^ 32 := by
  constructor
  · rintro ⟨j, h⟩
    obtain ⟨d, e, hd, hfits, rfl, hends, -⟩ := grows_of_growTable hamount h
    exact ⟨d, hd, hends, hfits⟩
  · rintro ⟨d, hd, hends, hstart, hsize⟩
    obtain ⟨tail, k, htail⟩ : ∃ tail k, tailDirectory i = .ok tail k := by
      cases he : d.isEmpty with
      | true =>
        rw [tableStart_of_isEmpty he] at hstart
        rw [tailDirectory_of_isEmpty hd he, narrow_of_lt hstart]
        exact ⟨_, _, rfl⟩
      | false =>
        rw [tailDirectory_of_table hd he, if_pos (hends he)]
        exact ⟨_, _, rfl⟩
    obtain ⟨d', filling, hfills, rfl⟩ := fills_of_tailDirectory htail
    cases hd.symm.trans hfills.entry
    exact ⟨_, growTable_of_fills hamount hfills htail hsize⟩

namespace Grows

theorem entry_le (h : i.Grows amount d e j) :
    i.layout.directoryOffset + directoryEntrySize ≤ i.length := entry_le_of_directory h.entry

theorem entry_le_append (h : i.Grows amount d e j) (filling : Nat) :
    (i.withBytes (i.bytes ++ Bytes.zeros filling)).layout.directoryOffset + directoryEntrySize
      ≤ (i.withBytes (i.bytes ++ Bytes.zeros filling)).length := by
  rw [layout_withBytes, length_withBytes, List.length_append]
  exact h.entry_le.trans (Nat.le_add_right _ _)

theorem directory_eq (h : i.Grows amount d e j) : j.directory = .ok e := by
  obtain ⟨filling, -, rfl⟩ := h.image_eq
  exact directory_withDirectory (h.entry_le_append filling) h.fits

theorem length_eq (h : i.Grows amount d e j) : j.length = e.stop := by
  obtain ⟨filling, hstop, rfl⟩ := h.image_eq
  rw [length_withDirectory (h.entry_le_append filling), length_withBytes, List.length_append,
    Bytes.length_zeros, hstop, length]

theorem le_length (h : i.Grows amount d e j) : i.length + amount ≤ j.length := by
  have halign := Bytes.le_align8 i.length
  have hends := h.ends
  rw [h.length_eq, h.entry_eq, CertificateDirectory.stop]
  dsimp only
  cases he : d.isEmpty with
  | true =>
    rw [tableStart_of_isEmpty he]
    omega
  | false =>
    rw [tableStart_of_table he, reserved_of_table he, ← hends he, CertificateDirectory.stop]
    omega

theorem isEmpty_eq_false (h : i.Grows amount d e j) (hamount : amount ≠ 0) : e.isEmpty = false := by
  have hle := h.entry_le
  have halign := Bytes.le_align8 i.length
  unfold directoryEntrySize at hle
  rw [CertificateDirectory.isEmpty_eq_false_iff, h.entry_eq]
  refine ⟨?_, Nat.add_pos_right _ (Nat.pos_of_ne_zero hamount)⟩
  cases he : d.isEmpty with
  | true =>
    dsimp only
    rw [tableStart_of_isEmpty he]
    omega
  | false =>
    dsimp only
    rw [tableStart_of_table he]
    exact (CertificateDirectory.isEmpty_eq_false_iff.1 he).1

theorem reserved_eq (h : i.Grows amount d e j) (hamount : amount ≠ 0) :
    e.reserved = d.reserved + amount := by
  rw [reserved_of_table (h.isEmpty_eq_false hamount), h.entry_eq]

theorem agreeOff (h : i.Grows amount d e j) : ∃ filling, j.length = i.length + filling ∧
    Bytes.AgreeOff (Bytes.Within i.layout.directoryOffset directoryEntrySize) j.bytes
      (i.bytes ++ Bytes.zeros filling) := by
  have hlength := h.length_eq
  obtain ⟨filling, hstop, rfl⟩ := h.image_eq
  exact ⟨filling, hlength.trans hstop, agreeOff_withDirectory (h.entry_le_append filling) e⟩

theorem getElem?_old (h : i.Grows amount d e j) {k : Nat} (hk : k < i.length)
    (hout : ¬Bytes.Within i.layout.directoryOffset directoryEntrySize k) :
    j.bytes[k]? = i.bytes[k]? := by
  obtain ⟨filling, -, hagree⟩ := h.agreeOff
  rw [hagree.2 k hout, List.getElem?_append_left hk]

theorem getElem?_new (h : i.Grows amount d e j) {k : Nat} (hk : i.length ≤ k)
    (hin : k < j.length) : j.bytes[k]? = some 0 := by
  obtain ⟨filling, hlength, hagree⟩ := h.agreeOff
  have hout : ¬Bytes.Within i.layout.directoryOffset directoryEntrySize k :=
    fun hwithin => absurd (hwithin.2.trans_le h.entry_le) (Nat.not_lt.2 hk)
  rw [hagree.2 k hout, List.getElem?_append_right hk, Bytes.zeros, List.getElem?_replicate]
  have hwithin : k - i.bytes.length < filling := by
    change k - i.length < filling
    omega
  exact if_pos hwithin

theorem getElem?_front (h : i.Grows amount d e j) {k : Nat} (hk : k < i.layout.directoryOffset) :
    j.bytes[k]? = i.bytes[k]? :=
  h.getElem?_old (hk.trans_le ((Nat.le_add_right _ _).trans h.entry_le))
    fun hwithin => absurd hwithin.1 (Nat.not_le.2 hk)

/-- Only a new table is put at an aligned place; one that was there stays where it is. -/
theorem dvd_offset_iff (h : i.Grows amount d e j) :
    8 ∣ e.offset ↔ d.isEmpty = true ∨ 8 ∣ d.offset := by
  rw [h.entry_eq]
  dsimp only
  cases he : d.isEmpty with
  | true =>
    rw [tableStart_of_isEmpty he]
    exact iff_of_true (Bytes.dvd_align8 _) (.inl rfl)
  | false =>
    rw [tableStart_of_table he]
    exact (or_iff_right Bool.false_ne_true).symm

end Grows

/-- A table that lies within the octets does so after it grew, and has the space that was asked
for beside what it had. -/
theorem exists_reserved_of_growTable (hd : i.directory = .ok d)
    (hin : d.isEmpty = false → d.stop ≤ i.length) (h : growTable amount i = .ok () j) :
    ∃ e, j.directory = .ok e ∧ e.reserved = d.reserved + amount ∧
      (e.isEmpty = false → e.stop ≤ j.length) := by
  by_cases hamount : amount = 0
  · rw [hamount, growTable_zero] at h
    cases h
    exact ⟨d, hd, hamount ▸ rfl, hin⟩
  · obtain ⟨d', e, hgrows⟩ := grows_of_growTable hamount h
    cases hd.symm.trans hgrows.entry
    exact ⟨e, hgrows.directory_eq, hgrows.reserved_eq hamount, fun _ => hgrows.length_eq.ge⟩

/-- A table grows where it ends the image or there is none. It then ends the longer image and has
the size that was asked for beside the one it had. Off the directory entry the old octets are what
they were, and all the new ones are zeros, those that fill the image up included. A new table starts
at an aligned place; one that was there stays where it is, so the table is aligned exactly when it
was before. -/
theorem aligned_iff_of_growTable (hamount : amount ≠ 0) :
    ((∃ j, growTable amount i = .ok () j) ↔ ∃ d, i.directory = .ok d ∧
      (d.isEmpty = false → d.stop = i.length) ∧ i.tableStart d < 2 ^ 32 ∧
      d.reserved + amount < 2 ^ 32) ∧
    ∀ j, growTable amount i = .ok () j → ∃ d e, i.directory = .ok d ∧ j.directory = .ok e ∧
      e.stop = j.length ∧ e.size = d.reserved + amount ∧
      (8 ∣ e.offset ↔ d.isEmpty = true ∨ 8 ∣ d.offset) ∧
      (∀ k < i.length, ¬Bytes.Within i.layout.directoryOffset directoryEntrySize k →
        j.bytes[k]? = i.bytes[k]?) ∧
      i.length + amount ≤ j.length ∧
      ∀ k, i.length ≤ k → k < j.length → j.bytes[k]? = some 0 := by
  refine ⟨exists_growTable_iff hamount, ?_⟩
  intro j h
  obtain ⟨d, e, hgrows⟩ := grows_of_growTable hamount h
  refine ⟨d, e, hgrows.entry, hgrows.directory_eq, hgrows.length_eq.symm, ?_,
    hgrows.dvd_offset_iff, fun k hk hout => hgrows.getElem?_old hk hout, hgrows.le_length,
    fun k hk hin => hgrows.getElem?_new hk hin⟩
  rw [hgrows.entry_eq]

/-- A table that starts one octet behind an aligned place stays there. -/
theorem aligned_iff_of_growTable_unaligned :
    let i := least ⟨225, 8⟩ [] (Bytes.zeros 9)
    parse i.bytes = .ok i ∧ ∃ j e, growTable 8 i = .ok () j ∧ j.directory = .ok e ∧
      e.size = 16 ∧ e.stop = j.length ∧ ¬8 ∣ e.offset := by
  intro i
  have hparse : parse i.bytes = .ok i := by decide +kernel
  have hentry : i.directory = .ok ⟨225, 8⟩ := by decide +kernel
  have hamount : 8 ≠ 0 := by decide
  obtain ⟨hexists, hgrown⟩ := aligned_iff_of_growTable (i := i) hamount
  obtain ⟨j, h⟩ := hexists.2 ⟨_, hentry, by decide +kernel, by decide, by decide⟩
  obtain ⟨d, e, hd, he, hstop, hsize, haligned, -⟩ := hgrown j h
  cases hentry.symm.trans hd
  refine ⟨hparse, j, e, h, he, hsize, hstop, ?_⟩
  rw [haligned]
  decide

end Authenticode.Pe.Image
