import Authenticode.Proofs.Der

/-!
# Octets split into elements

The elements of a byte string are asked for one after the other. Each call reads the element at
the start of what is left and leaves what stands behind it; a failure leaves nothing. So the
items come to an end, the elements are the first octets of the input without gaps, and only the
last item can be a failure. On octets that were written as elements, the calls give exactly
these elements.
-/
namespace Authenticode.Der

variable {data : Bytes}

/-- A call on the octets that are left: the next item, and what is left for later calls. -/
def next? : Bytes → Option (Except Error Element × Bytes)
  | [] => none
  | d :: ds =>
    match read (d :: ds) with
    | .ok e => some (.ok e, (d :: ds).drop e.raw.length)
    | .error f => some (.error f, [])

/-- The octets that are left after `n` calls. A call that gives no item changes nothing. -/
def remaining (data : Bytes) : (n : Nat) → Bytes
  | 0 => data
  | n + 1 => (next? (remaining data n)).elim (remaining data n) Prod.snd

/-- What the call behind `n` others gives. -/
def call? (data : Bytes) (n : Nat) : Option (Except Error Element) :=
  (next? (remaining data n)).map Prod.fst

theorem elements_eq_next? (data : Bytes) :
    elements data = (next? data).elim [] fun c => c.1 :: elements c.2 := by
  cases data with
  | nil => simp [elements, next?]
  | cons d ds =>
    cases hread : read (d :: ds) with
    | error f =>
      rw [elements, hread]
      simp [next?, hread, elements]
    | ok e => simp [elements_cons_of_read hread, next?, hread]

theorem call?_zero (data : Bytes) : call? data 0 = (elements data).head? := by
  rw [elements_eq_next?, call?, remaining]
  cases next? data <;> rfl

theorem elements_remaining (data : Bytes) (n : Nat) :
    elements (remaining data n) = (elements data).drop n := by
  induction n with
  | zero => rfl
  | succ n ih =>
    rw [← List.drop_drop, ← ih, remaining, elements_eq_next? (remaining data n)]
    cases hnext : next? (remaining data n) with
    | none => simp [elements_eq_next? (remaining data n), hnext]
    | some c => simp

theorem call?_eq_getElem? (data : Bytes) (n : Nat) : call? data n = (elements data)[n]? :=
  calc call? data n = (elements (remaining data n)).head? := call?_zero (remaining data n)
    _ = (elements data)[n]? := by rw [elements_remaining, List.head?_drop]

theorem length_elements_le (data : Bytes) : (elements data).length ≤ data.length := by
  fun_induction elements data with
  | case1 => exact le_rfl
  | case2 d ds f hread => simp
  | case3 d ds e hread ih =>
    have hraw := List.length_pos_iff.2 (raw_ne_nil_of_read hread)
    simp only [List.length_drop, List.length_cons] at ih ⊢
    omega

theorem call?_eq_none {n : Nat} (h : data.length ≤ n) : call? data n = none := by
  rw [call?_eq_getElem?]
  exact List.getElem?_eq_none ((length_elements_le data).trans h)

/-- The elements that were read stand one behind the other, and reading fails only on what is
behind all of them. -/
theorem exists_elements_eq (data : Bytes) :
    ∃ (es : List Element) (failure : Option Error) (rest : Bytes),
      elements data = es.map .ok ++ (failure.map .error).toList ∧
      (es.map (·.raw)).flatten ++ rest = data ∧ (failure = none ↔ rest = []) ∧
      ∀ f, failure = some f → read rest = .error f := by
  fun_induction elements data with
  | case1 => exact ⟨[], none, [], rfl, rfl, by simp, by simp⟩
  | case2 d ds f hread =>
    refine ⟨[], some f, d :: ds, rfl, rfl, by simp, ?_⟩
    rintro f' ⟨⟩
    exact hread
  | case3 d ds e hread ih =>
    obtain ⟨es, failure, rest, hitems, hdata, hwhole, hfailure⟩ := ih
    refine ⟨e :: es, failure, rest, ?_, ?_, hwhole, hfailure⟩
    · rw [hitems]
      rfl
    · rw [List.map_cons, List.flatten_cons, List.append_assoc, hdata]
      exact raw_append_drop_of_read hread

/-- What was written is found again unless a tag or a length is one that the reader refuses. -/
theorem elements_encodeAll_iff {items : List (UInt8 × Bytes)} :
    elements (encodeAll items) = items.map (fun q => .ok ⟨q.1, encode q.1 q.2, q.2⟩) ↔
      ∀ q ∈ items, q.1 &&& 0x1f ≠ 0x1f ∧ q.2.length < 2 ^ 32 := by
  constructor
  · intro h q hq
    have hmem : .ok ⟨q.1, encode q.1 q.2, q.2⟩ ∈ elements (encodeAll items) := by
      rw [h]
      exact List.mem_map_of_mem hq
    have hread := read_raw_of_mem_elements hmem
    have htag := tag_of_read hread
    exact ⟨htag, ((read_encode_eq_ok_iff htag).1 hread).1⟩
  · exact elements_encodeAll_of_forall

/-- Reading and writing agree. Elements that were written one after the other are given by the
calls in that order, each with its own encoding, exactly when the reader takes all their tags and
lengths. On any octets the calls come to an end, with at most one failure, as the last item. The
elements in front of it are read from octets that follow each other from the start, and these are
all octets exactly when there is no failure. -/
theorem elements_written_or_split :
    (∀ items : List (UInt8 × Bytes),
      elements (encodeAll items) = items.map (fun q => .ok ⟨q.1, encode q.1 q.2, q.2⟩) ↔
        ∀ q ∈ items, q.1 &&& 0x1f ≠ 0x1f ∧ q.2.length < 2 ^ 32) ∧
    ∀ data : Bytes,
      (∀ n, call? data n = (elements data)[n]?) ∧ (∀ n, data.length ≤ n → call? data n = none) ∧
      ∃ (es : List Element) (failure : Option Error) (rest : Bytes),
        elements data = es.map .ok ++ (failure.map .error).toList ∧
        (es.map (·.raw)).flatten ++ rest = data ∧
        (∀ e ∈ es, read e.raw = .ok e) ∧
        (failure = none ↔ (es.map (·.raw)).flatten = data) ∧
        ∀ f, failure = some f → read rest = .error f := by
  refine ⟨fun _ => elements_encodeAll_iff, ?_⟩
  intro data
  refine ⟨call?_eq_getElem? data, fun n => call?_eq_none, ?_⟩
  obtain ⟨es, failure, rest, hitems, hdata, hwhole, hfailure⟩ := exists_elements_eq data
  refine ⟨es, failure, rest, hitems, hdata, ?_, ?_, hfailure⟩
  · intro e he
    have hmem : .ok e ∈ elements data := by
      rw [hitems]
      exact List.mem_append_left _ (List.mem_map_of_mem he)
    exact read_raw_of_mem_elements hmem
  · rw [hwhole, ← hdata]
    simp

end Authenticode.Der
