import Authenticode.CertificateTable
import Authenticode.Proofs.Signature

/-!
# Tables and their lists

A certificate table is its entries one after the other, and each entry has a length
that is a multiple of eight and not zero. So the table of a list is empty only for
the empty list, its length is known from the lengths of the signatures, and the list
is read back from it, whatever zeros follow. Tables from elsewhere may leave out
filling or have more of it, so they are never shorter, up to the alignment, than the
table of what is read from them.
-/
namespace Authenticode

/-- The least octets that are taken as a signature: the identifier of signed data alone. -/
def Cms.Signature.least : Cms.Signature :=
  ⟨[0x30, 0x0b, 0x06, 0x09] ++ Cms.Signature.signedDataOid⟩

namespace CertificateTable

open Cms (Signature)

variable {s : Signature} {signatures : List Signature} {table e : Bytes}

theorem encodeEntry_eq_ok_iff :
    encodeEntry s = .ok e ↔ entrySize s.length < 2 ^ 32 ∧
      e = Bytes.ofLe 4 (entrySize s.length) ++ Bytes.ofLe 2 revision ++ Bytes.ofLe 2 signatureType
        ++ s.der.resize (entrySize s.length - headerSize) := by
  unfold encodeEntry
  dsimp only
  split
  · next hsize =>
    rw [Except.ok.injEq]
    exact ⟨fun h => ⟨hsize, h.symm⟩, fun h => h.2.symm⟩
  · next hsize => exact ⟨nofun, fun h => absurd h.1 hsize⟩

theorem headerSize_le_entrySize (n : Nat) : headerSize ≤ entrySize n := by
  unfold entrySize
  exact (Nat.le_add_right _ _).trans (Bytes.le_align8 _)

theorem length_of_encodeEntry (h : encodeEntry s = .ok e) : e.length = entrySize s.length := by
  obtain ⟨-, rfl⟩ := encodeEntry_eq_ok_iff.1 h
  have hsize := headerSize_le_entrySize s.length
  simp only [List.length_append, Bytes.length_ofLe, Bytes.length_resize]
  unfold headerSize at *
  omega

theorem encode_cons_eq_ok_iff :
    encode (s :: signatures) = .ok table ↔
      ∃ e rest, encodeEntry s = .ok e ∧ encode signatures = .ok rest ∧ table = e ++ rest := by
  unfold encode
  rw [List.mapM_cons]
  simp only [Except.map_eq_ok_iff, Except.bind_eq_ok_iff]
  constructor
  · rintro ⟨_, ⟨e, he, entries, hentries, hpure⟩, rfl⟩
    cases hpure
    exact ⟨e, _, he, ⟨entries, hentries, rfl⟩, List.flatten_cons⟩
  · rintro ⟨e, _, he, ⟨entries, hentries, rfl⟩, rfl⟩
    exact ⟨e :: entries, ⟨e, he, entries, hentries, rfl⟩, List.flatten_cons⟩

theorem length_of_encode (h : encode signatures = .ok table) : table.length = size signatures := by
  induction signatures generalizing table with
  | nil =>
    cases h
    rfl
  | cons s rest ih =>
    obtain ⟨e, t, he, ht, rfl⟩ := encode_cons_eq_ok_iff.1 h
    rw [List.length_append, length_of_encodeEntry he, ih ht]
    rfl

theorem ne_nil_of_encode (h : encode signatures = .ok table) (hsignatures : signatures ≠ []) :
    table ≠ [] := by
  cases signatures with
  | nil => exact absurd rfl hsignatures
  | cons s rest =>
    obtain ⟨e, t, he, -, rfl⟩ := encode_cons_eq_ok_iff.1 h
    have hlength := length_of_encodeEntry he
    have hsize := headerSize_le_entrySize s.length
    intro hnil
    rw [(List.append_eq_nil_iff.1 hnil).1, List.length_nil] at hlength
    unfold headerSize at hsize
    omega

theorem exists_encode_iff :
    (∃ table, encode signatures = .ok table) ↔ ∀ s ∈ signatures, entrySize s.length < 2 ^ 32 := by
  induction signatures with
  | nil => exact ⟨fun _ => List.forall_mem_nil _, fun _ => ⟨[], rfl⟩⟩
  | cons s rest ih =>
    simp only [encode_cons_eq_ok_iff, encodeEntry_eq_ok_iff, List.forall_mem_cons, ← ih]
    constructor
    · rintro ⟨_, e, t, ⟨hsize, -⟩, ht, -⟩
      exact ⟨hsize, t, ht⟩
    · rintro ⟨hsize, t, ht⟩
      exact ⟨_, _, t, ⟨hsize, rfl⟩, ht, rfl⟩

theorem entrySize_le_size (h : s ∈ signatures) : entrySize s.length ≤ size signatures := by
  induction signatures with
  | nil => cases h
  | cons t rest ih =>
    rcases List.mem_cons.1 h with rfl | hrest
    · exact Nat.le_add_right _ _
    · exact (ih hrest).trans (Nat.le_add_left _ _)

theorem exists_encode_of_size (h : size signatures < 2 ^ 32) :
    ∃ table, encode signatures = .ok table := by
  apply exists_encode_iff.2
  intro s hs
  exact (entrySize_le_size hs).trans_lt h

theorem dvd_size (signatures : List Signature) : 8 ∣ size signatures := by
  induction signatures with
  | nil => exact Nat.dvd_zero 8
  | cons s rest ih => exact Nat.dvd_add (Bytes.dvd_align8 _) ih

theorem size_insertIdx {signatures : List Signature} {k : Nat} (hk : k ≤ signatures.length)
    (extra : Signature) : size (signatures.insertIdx k extra) = sizeWith signatures extra := by
  induction k generalizing signatures with
  | zero =>
    rw [List.insertIdx_zero]
    exact Nat.add_comm _ _
  | succ k ih =>
    cases signatures with
    | nil => exact absurd hk (Nat.not_succ_le_zero k)
    | cons s rest =>
      have hrest := ih (Nat.le_of_succ_le_succ hk)
      unfold sizeWith size at hrest ⊢
      rw [List.insertIdx_succ_cons, List.foldr_cons, List.foldr_cons, hrest, Nat.add_assoc]

theorem size_eraseIdx_le (signatures : List Signature) (k : Nat) :
    size (signatures.eraseIdx k) ≤ size signatures := by
  induction signatures generalizing k with
  | nil => simp
  | cons s rest ih =>
    cases k with
    | zero => exact Nat.le_add_left _ _
    | succ k => exact Nat.add_le_add_left (ih k) _

theorem exists_header_of_encodeEntry (h : encodeEntry s = .ok e) :
    ∃ header, e = header ++ s.der ++ Bytes.zeros (entrySize s.length - headerSize - s.length) ∧
      header.length = headerSize ∧ 2 ∈ header ∧ Bytes.leNat (header.take 4) = entrySize s.length ∧
      Bytes.leNat ((header.drop 4).take 2) = revision ∧
      Bytes.leNat (header.drop 6) = signatureType := by
  obtain ⟨hsize, rfl⟩ := encodeEntry_eq_ok_iff.1 h
  have hroom : s.der.length ≤ entrySize s.length - headerSize := by
    have hle : headerSize + s.length ≤ entrySize s.length := Bytes.le_align8 _
    unfold Signature.length at *
    omega
  refine ⟨Bytes.ofLe 4 (entrySize s.length) ++ Bytes.ofLe 2 revision ++ Bytes.ofLe 2 signatureType,
    ?_, rfl, ?_, ?_, rfl, rfl⟩
  · rw [Bytes.resize_of_le hroom, ← List.append_assoc]
    rfl
  · exact List.mem_append_right _ (List.mem_cons_self ..)
  · rw [List.append_assoc, List.take_left' (Bytes.length_ofLe _ _), Bytes.leNat_ofLe]
    exact Nat.mod_eq_of_lt hsize

theorem decodeFrom_entry_append (h : encodeEntry s = .ok e)
    (hs : ∀ tail, Signature.ofDer (s.der ++ tail) = .ok s) (position : Nat) (rest : Bytes) :
    decodeFrom position (e ++ rest)
      = (decodeFrom (position + e.length) rest).map (s :: ·) := by
  have hlength := length_of_encodeEntry h
  have hsize := headerSize_le_entrySize s.length
  obtain ⟨header, he, hheader, hmark, hentry, hrevision, htype⟩ := exists_header_of_encodeEntry h
  have hslice : (e ++ rest).slice? 0 headerSize = some header := by
    rw [Bytes.slice?_eq_some_iff, List.drop_zero, he, List.append_assoc, List.append_assoc,
      List.take_left' hheader, List.length_append, hheader]
    exact ⟨⟨Nat.zero_le _, Nat.le_add_right _ _⟩, rfl⟩
  have hnonzero : (e ++ rest).all (· == 0) = false := by
    rw [List.all_eq_false]
    refine ⟨2, List.mem_append_left _ ?_, by decide⟩
    rw [he]
    exact List.mem_append_left _ (List.mem_append_left _ hmark)
  have hstep : min (align8 (entrySize s.length)) (e ++ rest).length = e.length := by
    rw [entrySize, Bytes.align8_align8, ← entrySize, ← hlength, List.length_append]
    exact Nat.min_eq_left (Nat.le_add_right _ _)
  have hder : (((e ++ rest).take (entrySize s.length)).drop headerSize)
      = s.der ++ Bytes.zeros (entrySize s.length - headerSize - s.length) := by
    rw [List.take_left' hlength, he, List.append_assoc, List.drop_left' hheader]
  rw [decodeFrom, if_neg (by rw [hnonzero]; exact Bool.false_ne_true), hslice]
  dsimp only
  rw [dif_neg (by rw [hentry, List.length_append]; omega), hrevision, htype,
    if_neg (fun hne => hne.1 rfl), if_neg (not_not.2 rfl), hentry, hder, hs, hstep,
    List.drop_left]
  rfl

theorem decodeFrom_zeros (position k : Nat) : decodeFrom position (Bytes.zeros k) = .ok [] := by
  rw [decodeFrom, if_pos]
  simp [Bytes.zeros]

/-- The list is read back from its table, when its signatures can be read; zeros may follow. -/
theorem decodeFrom_encode_append (h : encode signatures = .ok table)
    (hs : ∀ s ∈ signatures, ∀ tail, Signature.ofDer (s.der ++ tail) = .ok s) (position k : Nat) :
    decodeFrom position (table ++ Bytes.zeros k) = .ok signatures := by
  induction signatures generalizing table position with
  | nil =>
    cases h
    exact decodeFrom_zeros position k
  | cons s rest ih =>
    obtain ⟨e, t, he, ht, rfl⟩ := encode_cons_eq_ok_iff.1 h
    obtain ⟨hs, hrest⟩ := List.forall_mem_cons.1 hs
    rw [List.append_assoc, decodeFrom_entry_append he hs, ih ht hrest]
    rfl

theorem decodeFrom_of_encode (h : encode signatures = .ok table)
    (hs : ∀ s ∈ signatures, ∀ tail, Signature.ofDer (s.der ++ tail) = .ok s) (position : Nat) :
    decodeFrom position table = .ok signatures := by
  simpa [Bytes.zeros] using decodeFrom_encode_append h hs position 0

theorem readable_of_decodeFrom {position : Nat} (h : decodeFrom position table = .ok signatures) :
    ∀ s ∈ signatures, ∀ tail, Signature.ofDer (s.der ++ tail) = .ok s := by
  fun_induction decodeFrom position table generalizing signatures with
  | case1 =>
    cases h
    exact List.forall_mem_nil _
  | case2 | case3 | case4 | case5 => cases h
  | case6 =>
    rename_i ih
    obtain ⟨s, hs, h⟩ := Except.bind_eq_ok_iff.1 h
    obtain ⟨others, hothers, h⟩ := Except.bind_eq_ok_iff.1 h
    cases h
    exact List.forall_mem_cons.2 ⟨Signature.ofDer_der_append hs, ih hothers⟩

/-- What is read from a table takes, written again, no more octets than the table, up to the
alignment: each entry that was read had room for its header and its signature. -/
theorem size_le_of_decodeFrom {position : Nat}
    (h : decodeFrom position table = .ok signatures) : size signatures ≤ align8 table.length := by
  fun_induction decodeFrom position table generalizing signatures with
  | case1 =>
    cases h
    exact Nat.zero_le _
  | case2 | case3 | case4 | case5 => cases h
  | case6 position rest _ _ _ length _ _ hlength =>
    rename_i ih
    obtain ⟨s, hs, h⟩ := Except.bind_eq_ok_iff.1 h
    obtain ⟨others, hothers, h⟩ := Except.bind_eq_ok_iff.1 h
    cases h
    have hothers := ih hothers
    have hroom := Signature.length_le_of_ofDer hs
    have hentry : entrySize s.length ≤ align8 length := by
      rw [List.length_drop, List.length_take] at hroom
      unfold entrySize align8
      omega
    rw [List.length_drop] at hothers
    change entrySize s.length + size others ≤ align8 rest.length
    unfold align8 at *
    omega

/-- Writing and reading tables. A list of signatures that were read can be written when each entry
fits its length field; then it is read back, whatever zeros follow, and the table has the size that
was reckoned, a multiple of eight. What is read from a table of any origin is read again when it is
written, and takes no more octets than the table had, up to the alignment. -/
theorem roundTrip :
    (∀ signatures : List Signature, (∀ s ∈ signatures, ∃ data, Signature.ofDer data = .ok s) →
      ((∃ table, encode signatures = .ok table) ↔
        ∀ s ∈ signatures, entrySize s.length < 2 ^ 32) ∧
      ∀ table, encode signatures = .ok table →
        (∀ k, decode (table ++ Bytes.zeros k) = .ok signatures) ∧
        table.length = size signatures ∧ 8 ∣ table.length) ∧
    ∀ (signatures : List Signature) (foreign table : Bytes), decode foreign = .ok signatures →
      encode signatures = .ok table →
        decode table = .ok signatures ∧ table.length ≤ align8 foreign.length := by
  constructor
  · intro signatures hread
    refine ⟨exists_encode_iff, ?_⟩
    intro table htable
    have hlength := length_of_encode htable
    have hs : ∀ s ∈ signatures, ∀ tail, Signature.ofDer (s.der ++ tail) = .ok s := by
      intro s hs
      obtain ⟨data, hdata⟩ := hread s hs
      exact Signature.ofDer_der_append hdata
    exact ⟨decodeFrom_encode_append htable hs 0, hlength, hlength ▸ dvd_size signatures⟩
  · intro signatures foreign table hforeign htable
    constructor
    · exact decodeFrom_of_encode htable (readable_of_decodeFrom hforeign) 0
    · rw [length_of_encode htable]
      exact size_le_of_decodeFrom hforeign

/-- Two entries as other programs may write them: the first of the old revision and with three
octets behind its signature, the second without filling. -/
def foreign : Bytes :=
  Bytes.ofLe 4 24 ++ Bytes.ofLe 2 oldRevision ++ Bytes.ofLe 2 signatureType
    ++ Signature.least.der ++ [1, 2, 3]
    ++ Bytes.ofLe 4 21 ++ Bytes.ofLe 2 revision ++ Bytes.ofLe 2 signatureType
    ++ Signature.least.der

theorem roundTrip_foreign :
    decode foreign = .ok [.least, .least] ∧ foreign.length = 45 ∧
      ∃ table, encode [.least, .least] = .ok table ∧ decode table = .ok [.least, .least] ∧
        table.length ≤ 48 ∧ decode (table ++ Bytes.zeros 5) = .ok [.least, .least] := by
  have hread : ∀ s ∈ [Signature.least, Signature.least], ∃ data, Signature.ofDer data = .ok s := by
    have hleast : Signature.ofDer Signature.least.der = .ok .least := by decide +kernel
    intro s hs
    obtain rfl : s = .least := by simpa using hs
    exact ⟨_, hleast⟩
  have hforeign : decode foreign = .ok [.least, .least] := by decide +kernel
  obtain ⟨table, htable⟩ := (roundTrip.1 _ hread).1.2 (by decide +kernel)
  have htwice := roundTrip.2 _ _ _ hforeign htable
  exact ⟨hforeign, rfl, table, htable, htwice.1, htwice.2,
    ((roundTrip.1 _ hread).2 table htable).1 5⟩

end CertificateTable

end Authenticode
