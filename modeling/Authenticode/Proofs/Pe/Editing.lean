import Authenticode.Proofs.Pe.Fields

/-!
# What each edit of an image does

Every edit is described once, as a result computed from the octets and the
directory entry; later modules use these descriptions and do not open the edits
again. The entry is read before anything else is done, so an image whose entry
cannot be read is left as it was.
-/
namespace Authenticode.Pe.Image

variable {i j : Image} {d tail : CertificateDirectory} {amount : Nat} {table : Bytes} {f : Error}

def withBytes (i : Image) (b : Bytes) : Image := { i with bytes := b }

@[simp] theorem bytes_withBytes (i : Image) (b : Bytes) : (i.withBytes b).bytes = b := rfl

@[simp] theorem layout_withBytes (i : Image) (b : Bytes) : (i.withBytes b).layout = i.layout := rfl

@[simp] theorem length_withBytes (i : Image) (b : Bytes) : (i.withBytes b).length = b.length := rfl

theorem directory_withBytes {b : Bytes}
    (h : b.slice? i.layout.directoryOffset (i.layout.directoryOffset + directoryEntrySize)
      = i.bytes.slice? i.layout.directoryOffset (i.layout.directoryOffset + directoryEntrySize)) :
    (i.withBytes b).directory = .ok d ↔ i.directory = .ok d :=
  directory_congr (layout_withBytes i b) h

def withDirectory (i : Image) (d : CertificateDirectory) : Image :=
  i.withBytes (i.bytes.overwrite i.layout.directoryOffset d.toBytes)

@[simp] theorem layout_withDirectory (i : Image) (d : CertificateDirectory) :
    (i.withDirectory d).layout = i.layout := rfl

section

variable (h : i.layout.directoryOffset + directoryEntrySize ≤ i.length)

include h

theorem length_withDirectory (d : CertificateDirectory) :
    (i.withDirectory d).length = i.length :=
  Bytes.length_overwrite (by rwa [CertificateDirectory.length_toBytes])

theorem agreeOff_withDirectory (d : CertificateDirectory) :
    Bytes.AgreeOff (Bytes.Within i.layout.directoryOffset directoryEntrySize)
      (i.withDirectory d).bytes i.bytes := by
  have hin : i.layout.directoryOffset + d.toBytes.length ≤ i.bytes.length := by
    rwa [CertificateDirectory.length_toBytes]
  have hwritten := Bytes.agreeOff_overwrite hin
  rwa [CertificateDirectory.length_toBytes] at hwritten

theorem getElem?_withDirectory {p : Nat} (hp : p < i.layout.directoryOffset) :
    (i.withDirectory d).bytes[p]? = i.bytes[p]? :=
  (agreeOff_withDirectory h d).2 p fun hwithin => absurd hwithin.1 (Nat.not_le.2 hp)

theorem directory_withDirectory (hfits : d.Fits) : (i.withDirectory d).directory = .ok d := by
  have hlen : i.layout.directoryOffset + d.toBytes.length ≤ i.bytes.length := by
    rwa [CertificateDirectory.length_toBytes]
  refine directory_eq_ok_iff.2 ⟨hfits, ?_⟩
  rw [← d.length_toBytes, layout_withDirectory, Bytes.slice?_eq_some_iff_getElem?]
  refine ⟨(Bytes.length_overwrite hlen).symm ▸ hlen, ?_⟩
  intro k hk
  rw [withDirectory, bytes_withBytes, Bytes.getElem?_overwrite hlen, if_pos ⟨by omega, by omega⟩,
    Nat.add_sub_cancel_left]

end

theorem setDirectory_of_le (h : i.layout.directoryOffset + directoryEntrySize ≤ i.length) :
    setDirectory d i = .ok () (i.withDirectory d) := by
  have hin : ¬i.length < i.layout.directoryOffset + directoryEntrySize := by omega
  simp only [setDirectory, Step.get_bind, if_neg hin]
  rfl

theorem updateChecksum_of_le
    (h : i.layout.checksumOffset + Checksum.fieldLength ≤ i.length) :
    updateChecksum i = .ok () (i.withBytes (i.bytes.overwrite i.layout.checksumOffset
      (Bytes.ofLe Checksum.fieldLength (Checksum.compute i.bytes i.layout.checksumOffset)))) := by
  have hupdate : Checksum.update i.bytes i.layout.checksumOffset = .ok _ := if_pos h
  rw [updateChecksum, Step.get_bind, hupdate]
  rfl

theorem updateChecksum_of_lt
    (h : i.length < i.layout.checksumOffset + Checksum.fieldLength) :
    updateChecksum i = .error (.image .checksumOutside) i := by
  have hupdate : Checksum.update i.bytes i.layout.checksumOffset = .error _ :=
    if_neg (Nat.not_le.2 h)
  rw [updateChecksum, Step.get_bind, hupdate]
  rfl

theorem length_of_updateChecksum (h : updateChecksum i = .ok () j) :
    j.layout = i.layout ∧ j.length = i.length := by
  by_cases hin : i.layout.checksumOffset + Checksum.fieldLength ≤ i.length
  · rw [updateChecksum_of_le hin] at h
    cases h
    exact ⟨rfl, Bytes.length_overwrite (by rwa [Bytes.length_ofLe])⟩
  · rw [updateChecksum_of_lt (Nat.not_le.1 hin)] at h
    cases h

theorem currentDirectory_of_ok (hd : i.directory = .ok d) : currentDirectory i = .ok d i := by
  rw [currentDirectory, Step.get_bind, hd, Step.ofExcept_ok]

theorem currentDirectory_of_error (hd : i.directory = .error f) :
    currentDirectory i = .error f i := by
  rw [currentDirectory, Step.get_bind, hd, Step.ofExcept_error]

theorem exists_directory_of_bind {α : Type} {a : α} {edit : CertificateDirectory → Edit α}
    (h : (currentDirectory >>= edit) i = .ok a j) : ∃ d, i.directory = .ok d := by
  cases hd : i.directory with
  | ok d => exact ⟨d, rfl⟩
  | error f =>
    rw [Step.bind_of_error (currentDirectory_of_error hd)] at h
    cases h

/-- The image without its table, with the checksum not yet brought up to date. -/
def withoutTable (i : Image) (d : CertificateDirectory) : Image :=
  let cleared := i.withDirectory .none
  if d.stop = i.length then cleared.withBytes (cleared.bytes.take d.offset) else cleared

@[simp] theorem layout_withoutTable (i : Image) (d : CertificateDirectory) :
    (i.withoutTable d).layout = i.layout := by
  unfold withoutTable
  split <;> rfl

theorem clearTable_of_isEmpty (hd : i.directory = .ok d) (he : d.isEmpty = true) :
    clearTable i = .ok none i := by
  rw [clearTable, Step.get_bind, Step.bind_of_ok (currentDirectory_of_ok hd), if_pos he]
  rfl

/-- Clearing stores the checksum last; where that fails the table is gone nevertheless. -/
theorem clearTable_of_table (hd : i.directory = .ok d) (he : d.isEmpty = false) :
    clearTable i = match updateChecksum (i.withoutTable d) with
      | .ok _ j =>
        .ok (if d.stop = i.length then none else some (.tableNotAtEnd d.offset d.size i.length)) j
      | .error f j => .error f j := by
  rw [clearTable, Step.get_bind, Step.bind_of_ok (currentDirectory_of_ok hd),
    if_neg (by simp [he]),
    Step.bind_of_ok (setDirectory_of_le (d := .none) (entry_le_of_directory hd)), withoutTable]
  generalize i.withDirectory .none = cleared
  by_cases hcut : d.stop = i.length
  · simp only [if_pos hcut]
    change (updateChecksum >>= fun _ => pure none) (cleared.withBytes (cleared.bytes.take d.offset))
      = _
    cases hresult : updateChecksum (cleared.withBytes (cleared.bytes.take d.offset)) with
    | ok _ j => exact Step.bind_of_ok hresult
    | error f j => exact Step.bind_of_error hresult
  · simp only [if_neg hcut]
    cases hresult : updateChecksum cleared with
    | ok _ j => exact Step.bind_of_ok hresult
    | error f j => exact Step.bind_of_error hresult

theorem exists_directory_of_clearTable {w : Option Warning} (h : clearTable i = .ok w j) :
    ∃ d, i.directory = .ok d := by
  rw [clearTable, Step.get_bind] at h
  exact exists_directory_of_bind h

theorem narrow_of_lt {n : Nat} (h : n < 2 ^ 32) : narrow n = .ok n := if_pos h

theorem narrow_of_le {n : Nat} (h : 2 ^ 32 ≤ n) : narrow n = .error (.image (.offsetTooLarge n)) :=
  if_neg (Nat.not_lt.2 h)

def padded (i : Image) : Image := i.withBytes i.bytes.aligned

theorem bytes_padded (i : Image) :
    i.padded.bytes = i.bytes ++ Bytes.zeros (align8 i.length - i.length) :=
  Bytes.aligned_eq_append _

@[simp] theorem length_padded (i : Image) : i.padded.length = align8 i.length :=
  Bytes.length_aligned _

theorem tailDirectory_of_isEmpty (hd : i.directory = .ok d) (he : d.isEmpty = true) :
    tailDirectory i = match narrow (align8 i.length) with
      | .ok n => .ok ⟨n, 0⟩ i.padded
      | .error f => .error f i.padded := by
  simp only [tailDirectory]
  rw [Step.get_bind, Step.bind_of_ok (currentDirectory_of_ok hd), if_pos he]
  rw [Step.bind_of_ok
    (show setBytes (i.bytes.resize (align8 i.length)) i = .ok () i.padded from rfl)]
  cases hnarrow : narrow (align8 i.length) with
  | ok n => exact Step.bind_of_ok Step.ofExcept_ok
  | error f => exact Step.bind_of_error Step.ofExcept_error

theorem tailDirectory_of_table (hd : i.directory = .ok d) (he : d.isEmpty = false) :
    tailDirectory i =
      if d.stop = i.length then .ok d i else .error (.image .tableNotAtEnd) i := by
  simp only [tailDirectory]
  rw [Step.get_bind, Step.bind_of_ok (currentDirectory_of_ok hd), if_neg (by simp [he])]
  by_cases hstop : d.stop = i.length
  · rw [if_pos hstop, if_neg (not_not.2 hstop)]
    rfl
  · rw [if_neg hstop, if_pos hstop]
    rfl

theorem exists_directory_of_tailDirectory (h : tailDirectory i = .ok tail j) :
    ∃ d, i.directory = .ok d := by
  simp only [tailDirectory] at h
  rw [Step.get_bind] at h
  exact exists_directory_of_bind h

theorem growTable_of_tail (hamount : amount ≠ 0) (htail : tailDirectory i = .ok tail j)
    (hlimit : tail.offset + (tail.size + amount) ≤ maxLength) :
    growTable amount i =
      let grown := j.withBytes (j.bytes.resize (tail.offset + (tail.size + amount)))
      match narrow (tail.size + amount) with
      | .ok n => setDirectory ⟨tail.offset, n⟩ grown
      | .error f => .error f grown := by
  simp only [growTable]
  rw [if_neg hamount, Step.bind_of_ok htail, if_neg (Nat.not_lt.2 hlimit), Step.get_bind]
  rw [Step.bind_of_ok (show setBytes _ j = .ok () _ from rfl)]
  cases hnarrow : narrow (tail.size + amount) with
  | ok n => exact Step.bind_of_ok Step.ofExcept_ok
  | error f => exact Step.bind_of_error Step.ofExcept_error

theorem growTable_of_tail_error (hamount : amount ≠ 0) (htail : tailDirectory i = .error f j) :
    growTable amount i = .error f j := by
  simp only [growTable]
  rw [if_neg hamount, Step.bind_of_error htail]

theorem growTable_zero : growTable 0 i = .ok () i := rfl

/-- No byte string is as long as that, so the run ends; the filling was put in before. -/
theorem growTable_of_limit (hamount : amount ≠ 0) (htail : tailDirectory i = .ok tail j)
    (hlimit : maxLength < tail.offset + (tail.size + amount)) :
    growTable amount i = .error .aborted j := by
  simp only [growTable]
  rw [if_neg hamount, Step.bind_of_ok htail, if_pos hlimit]
  rfl

theorem le_maxLength_of_growTable (hamount : amount ≠ 0) (htail : tailDirectory i = .ok tail j)
    {k : Image} (h : growTable amount i = .ok () k) :
    tail.offset + (tail.size + amount) ≤ maxLength := by
  by_contra hlimit
  rw [growTable_of_limit hamount htail (Nat.not_le.1 hlimit)] at h
  cases h

theorem reserved_of_table (he : d.isEmpty = false) : d.reserved = d.size := if_neg (by simp [he])

theorem writeTable_of_le (hd : i.directory = .ok d) (hfits : table.length ≤ d.reserved)
    (hin : d.isEmpty = false → d.stop ≤ i.length) :
    writeTable table i = .ok () (if d.isEmpty then i else
      i.withBytes (i.bytes.overwrite d.offset (table.resize d.size))) := by
  simp only [writeTable]
  rw [Step.get_bind, Step.bind_of_ok (currentDirectory_of_ok hd),
    if_neg (by omega)]
  cases he : d.isEmpty with
  | true => simp [CertificateDirectory.reserved, he]; rfl
  | false =>
    have hreserved := reserved_of_table he
    have hsize := (CertificateDirectory.isEmpty_eq_false_iff.1 he).2
    rw [hreserved, if_neg (by omega), if_neg (by have := hin he; omega)]
    rfl

theorem writeTable_of_lt (hd : i.directory = .ok d) (hfits : d.reserved < table.length) :
    writeTable table i =
      .error (.inconsistent (.listExceedsReservation table.length d.reserved)) i := by
  simp only [writeTable]
  rw [Step.get_bind, Step.bind_of_ok (currentDirectory_of_ok hd), if_pos hfits]
  rfl

theorem writeTable_of_outside (hd : i.directory = .ok d) (he : d.isEmpty = false)
    (hfits : table.length ≤ d.size) (hout : i.length < d.stop) :
    writeTable table i = .error .aborted i := by
  have hreserved := reserved_of_table he
  have hsize := (CertificateDirectory.isEmpty_eq_false_iff.1 he).2
  simp only [writeTable]
  rw [Step.get_bind, Step.bind_of_ok (currentDirectory_of_ok hd), hreserved, if_neg (by omega),
    if_neg (by omega), if_pos hout]
  rfl

theorem le_reserved_of_writeTable (h : writeTable table i = .ok () j) :
    ∃ d, i.directory = .ok d ∧ table.length ≤ d.reserved := by
  have hentry := h
  simp only [writeTable] at hentry
  rw [Step.get_bind] at hentry
  obtain ⟨d, hd⟩ := exists_directory_of_bind hentry
  refine ⟨d, hd, ?_⟩
  by_contra hlt
  rw [writeTable_of_lt hd (Nat.lt_of_not_le hlt)] at h
  cases h

/-- A write that fails has changed nothing. -/
theorem eq_of_writeTable_error (h : writeTable table i = .error f j) : j = i := by
  cases hd : i.directory with
  | error g =>
    simp only [writeTable] at h
    rw [Step.get_bind, Step.bind_of_error (currentDirectory_of_error hd)] at h
    cases h
    rfl
  | ok d =>
    by_cases hfits : table.length ≤ d.reserved
    · by_cases hin : d.isEmpty = false → d.stop ≤ i.length
      · rw [writeTable_of_le hd hfits hin] at h
        cases h
      · obtain ⟨he, hout⟩ := Classical.not_imp.1 hin
        rw [writeTable_of_outside hd he (reserved_of_table he ▸ hfits) (Nat.not_le.1 hout)] at h
        cases h
        rfl
    · rw [writeTable_of_lt hd (Nat.not_le.1 hfits)] at h
      cases h
      rfl

theorem replaceTable_nil (hd : i.directory = .ok d) :
    replaceTable [] i = if d.isEmpty then .ok none i else clearTable i := by
  simp only [replaceTable]
  rw [Step.bind_of_ok (currentDirectory_of_ok hd), if_pos trivial]
  split <;> rfl

theorem replaceTable_of_tail (hd : i.directory = .ok d) (htable : table ≠ [])
    (htail : tailDirectory i = .ok tail j) :
    replaceTable table i =
      let replaced := j.withBytes (j.bytes.take tail.offset ++ table)
      match narrow table.length with
      | .ok n =>
        match setDirectory ⟨tail.offset, n⟩ replaced with
        | .ok _ k => .ok none k
        | .error f k => .error f k
      | .error f => .error f replaced := by
  simp only [replaceTable]
  rw [Step.bind_of_ok (currentDirectory_of_ok hd), if_neg htable, Step.bind_of_ok htail,
    Step.get_bind, Step.bind_of_ok (show setBytes _ j = .ok () _ from rfl)]
  cases hnarrow : narrow table.length with
  | error f => exact Step.bind_of_error Step.ofExcept_error
  | ok n =>
    rw [Step.bind_of_ok Step.ofExcept_ok]
    dsimp only [withBytes]
    cases hset : setDirectory ⟨tail.offset, n⟩ _ with
    | ok _ k => exact Step.bind_of_ok hset
    | error f k => exact Step.bind_of_error hset

/-- A table that was replaced stands behind the octets in front of its start, and the entry names
it. -/
theorem eq_withDirectory_of_replaceTable {w : Option Warning} {k : Image}
    (hd : i.directory = .ok d) (htable : table ≠ []) (htail : tailDirectory i = .ok tail j)
    (hentry : j.layout.directoryOffset + directoryEntrySize
      ≤ (j.withBytes (j.bytes.take tail.offset ++ table)).length)
    (h : replaceTable table i = .ok w k) : table.length < 2 ^ 32 ∧
      k = (j.withBytes (j.bytes.take tail.offset ++ table)).withDirectory
        ⟨tail.offset, table.length⟩ := by
  rw [replaceTable_of_tail hd htable htail] at h
  by_cases hnarrow : table.length < 2 ^ 32
  · rw [narrow_of_lt hnarrow] at h
    dsimp only at h
    rw [setDirectory_of_le hentry] at h
    cases h
    exact ⟨hnarrow, rfl⟩
  · rw [narrow_of_le (Nat.not_lt.1 hnarrow)] at h
    cases h

theorem replaceTable_of_tail_error (hd : i.directory = .ok d) (htable : table ≠ [])
    (htail : tailDirectory i = .error f j) : replaceTable table i = .error f j := by
  simp only [replaceTable]
  rw [Step.bind_of_ok (currentDirectory_of_ok hd), if_neg htable, Step.bind_of_error htail]

theorem exists_directory_of_replaceTable {w : Option Warning}
    (h : replaceTable table i = .ok w j) : ∃ d, i.directory = .ok d := by
  simp only [replaceTable] at h
  exact exists_directory_of_bind h

end Authenticode.Pe.Image
