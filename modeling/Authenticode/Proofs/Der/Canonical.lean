import Authenticode.Proofs.Bytes
import Authenticode.Proofs.Der

/-!
# Canonical sets

The elements of a set stand in the order of their encodings, which are compared octet by
octet, the shorter one going on with zeros. An element says itself where it ends, so none of
them begins another one. For elements this is therefore the plain order of byte strings, and
given elements can stand in it in one way only.

A set is canonical when all its lengths take the shortest form and its elements stand in that
order. These are the sets that stay as they are when they are taken apart and written again.
-/
namespace Authenticode.Der

variable {a b c : Bytes}

/-- How two encodings in a set are compared: the shorter one goes on with zeros. -/
def setOrder (a b : Bytes) : Ordering :=
  compare (a.resize (max a.length b.length)) (b.resize (max a.length b.length))

theorem compare_append (h : a.length = b.length) (s t : Bytes) :
    compare (a ++ s) (b ++ t) = (compare a b).then (compare s t) := by
  induction a generalizing b with
  | nil =>
    rw [List.length_nil, eq_comm, List.length_eq_zero_iff] at h
    rw [h]
    rfl
  | cons x a ih =>
    cases b with
    | nil => cases h
    | cons y b =>
      rw [List.cons_append, List.cons_append, List.compare_cons_cons, List.compare_cons_cons,
        ih (Nat.succ.inj h), Ordering.then_assoc]

/-- It does not matter how many zeros are put behind, if it is enough. -/
theorem setOrder_eq_compare_resize {n : Nat} (ha : a.length ≤ n) (hb : b.length ≤ n) :
    setOrder a b = compare (a.resize n) (b.resize n) := by
  have hmore : ∀ x : Bytes, x.length ≤ max a.length b.length →
      x.resize n = x.resize (max a.length b.length) ++ Bytes.zeros (n - max a.length b.length) := by
    intro x hx
    have hn : max a.length b.length ≤ n := max_le ha hb
    rw [Bytes.resize_of_le (hx.trans hn), Bytes.resize_of_le hx, List.append_assoc,
      Bytes.zeros_append]
    congr 2
    omega
  have hzeros : compare (Bytes.zeros (n - max a.length b.length))
      (Bytes.zeros (n - max a.length b.length)) = .eq := Std.compare_eq_iff_eq.2 rfl
  rw [setOrder, hmore a (le_max_left ..), hmore b (le_max_right ..),
    compare_append (by rw [Bytes.length_resize, Bytes.length_resize]), hzeros, Ordering.then_eq]

theorem setOrder_swap (a b : Bytes) : setOrder a b = (setOrder b a).swap := by
  rw [setOrder, setOrder, max_comm b.length]
  exact Std.OrientedCmp.eq_swap

theorem setOrder_total (a b : Bytes) : (setOrder a b).isLE ∨ (setOrder b a).isLE := by
  rw [setOrder_swap b a]
  cases setOrder a b <;> simp

theorem setOrder_trans (hab : (setOrder a b).isLE) (hbc : (setOrder b c).isLE) :
    (setOrder a c).isLE := by
  have ha : a.length ≤ max a.length (max b.length c.length) := le_max_left ..
  have hb : b.length ≤ max a.length (max b.length c.length) :=
    (le_max_left ..).trans (le_max_right ..)
  have hc : c.length ≤ max a.length (max b.length c.length) :=
    (le_max_right ..).trans (le_max_right ..)
  rw [setOrder_eq_compare_resize ha hb] at hab
  rw [setOrder_eq_compare_resize hb hc] at hbc
  rw [setOrder_eq_compare_resize ha hc]
  exact Std.TransCmp.isLE_trans hab hbc

theorem setOrder_cons_cons (x y : UInt8) (a b : Bytes) :
    setOrder (x :: a) (y :: b) = (compare x y).then (setOrder a b) := by
  have hmax : max (x :: a).length (y :: b).length = max a.length b.length + 1 :=
    Nat.add_max_add_right ..
  have hcons : ∀ (d : UInt8) (b : Bytes) (n : Nat),
      Bytes.resize (d :: b) (n + 1) = d :: b.resize n := by
    intro d b n
    simp [Bytes.resize]
  rw [setOrder, hmax, hcons, hcons, List.compare_cons_cons, setOrder]

theorem setOrder_nil_isLE (b : Bytes) : (setOrder [] b).isLE := by
  induction b with
  | nil => rfl
  | cons y b ih =>
    have hzero : setOrder [] (y :: b) = (compare 0 y).then (setOrder [] b) := by
      simp [setOrder, Bytes.resize, Bytes.zeros, List.replicate_succ, List.compare_cons_cons]
    have hy : (compare 0 y).isLE := by
      rw [Std.isLE_compare]
      exact UInt8.zero_le
    rw [hzero, Ordering.isLE_then_iff_and]
    exact ⟨hy, .inr ih⟩

theorem setOrder_isLE_of_compare (h : (compare a b).isLE) : (setOrder a b).isLE := by
  induction a generalizing b with
  | nil => exact setOrder_nil_isLE b
  | cons x a ih =>
    cases b with
    | nil => cases h
    | cons y b =>
      rw [List.compare_cons_cons, Ordering.isLE_then_iff_or] at h
      rw [setOrder_cons_cons, Ordering.isLE_then_iff_or]
      exact h.imp_right fun ⟨hxy, hab⟩ => ⟨hxy, ih hab⟩

/-- The zeros decide only where one encoding begins the other. -/
theorem setOrder_eq_compare (hab : a <+: b → a = b) (hba : b <+: a → b = a) :
    setOrder a b = compare a b := by
  induction a generalizing b with
  | nil =>
    cases hab List.nil_prefix
    rfl
  | cons x a ih =>
    cases b with
    | nil => cases hba List.nil_prefix
    | cons y b =>
      rw [setOrder_cons_cons, List.compare_cons_cons]
      by_cases hxy : x = y
      · subst hxy
        rw [ih]
        · intro h
          exact List.tail_eq_of_cons_eq (hab ((List.prefix_cons_inj x).2 h))
        · intro h
          exact List.tail_eq_of_cons_eq (hba ((List.prefix_cons_inj x).2 h))
      · have hne := mt Std.compare_eq_iff_eq.1 hxy
        cases hcompare : compare x y with
        | eq => exact absurd hcompare hne
        | lt => rfl
        | gt => rfl

/-- The octets are one element and nothing else. -/
def IsElement (b : Bytes) : Prop := ∃ e, read b = .ok e ∧ e.raw = b

theorem isElement_raw_of_read {data : Bytes} {e : Element} (h : read data = .ok e) :
    IsElement e.raw := ⟨e, read_raw h, rfl⟩

/-- No element begins another one. -/
theorem IsElement.eq_of_prefix (ha : IsElement a) (hb : IsElement b) (h : a <+: b) : a = b := by
  obtain ⟨e, hread, rfl⟩ := ha
  obtain ⟨e', hread', rfl⟩ := hb
  obtain ⟨tail, htail⟩ := h
  have hagain := read_raw_append hread tail
  rw [htail, hread'] at hagain
  cases hagain
  rfl

theorem IsElement.setOrder_eq (ha : IsElement a) (hb : IsElement b) :
    setOrder a b = compare a b :=
  setOrder_eq_compare (ha.eq_of_prefix hb) (hb.eq_of_prefix ha)

theorem IsElement.eq_of_setOrder (ha : IsElement a) (hb : IsElement b)
    (hab : (setOrder a b).isLE) (hba : (setOrder b a).isLE) : a = b := by
  rw [ha.setOrder_eq hb] at hab
  rw [hb.setOrder_eq ha] at hba
  exact Std.compare_eq_iff_eq.1 (Std.OrientedCmp.isLE_antisymm hab hba)

/-- The encodings stand in the order of a set. -/
def Ascending (parts : List Bytes) : Prop := parts.Pairwise fun a b => (setOrder a b).isLE

instance (parts : List Bytes) : Decidable (Ascending parts) :=
  inferInstanceAs (Decidable (parts.Pairwise _))

/-- Elements can stand in the order of a set in one way only. -/
theorem Ascending.eq_of_perm {parts parts' : List Bytes} (h : Ascending parts)
    (h' : Ascending parts') (hparts : ∀ a ∈ parts, IsElement a) (hperm : parts.Perm parts') :
    parts = parts' := by
  refine List.Perm.eq_of_pairwise ?_ h h' hperm
  intro a b ha hb hab hba
  exact (hparts a ha).eq_of_setOrder (hparts b (hperm.mem_iff.2 hb)) hab hba

theorem encode_retag_iff {data : Bytes} {e : Element} (h : read data = .ok e) (tag : UInt8) :
    encode tag e.contents = tag :: e.raw.drop 1 ↔ encode e.tag e.contents = e.raw := by
  cases data with
  | nil => cases h
  | cons first rest =>
    obtain ⟨-, length, octets, -, -, rfl⟩ := read_cons_eq_ok_iff.1 h
    simp only [encode, List.cons_append, List.cons.injEq, true_and, List.drop_succ_cons,
      List.drop_zero]

theorem isElement_of_allElements {data : Bytes} {es : List Element}
    (h : allElements data = .ok es) : ∀ b ∈ es.map (·.raw), IsElement b := by
  intro b hb
  obtain ⟨e, he, rfl⟩ := List.mem_map.1 hb
  have hmem : .ok e ∈ elements data := allElements_eq_ok_iff.1 h ▸ List.mem_map_of_mem he
  exact isElement_raw_of_read (read_raw_of_mem_elements hmem)

theorem tags_of_allElements {data : Bytes} {es : List Element} (h : allElements data = .ok es) :
    ∀ q ∈ es.map fun e => (e.tag, e.contents), q.1 &&& 0x1f ≠ 0x1f := by
  intro q hq
  obtain ⟨e, he, rfl⟩ := List.mem_map.1 hq
  have hmem : .ok e ∈ elements data := allElements_eq_ok_iff.1 h ▸ List.mem_map_of_mem he
  exact tag_of_read (read_raw_of_mem_elements hmem)

/-- A set that is written with the shortest lengths and in the order of a set. -/
def IsCanonicalSet (data : Bytes) : Prop :=
  ∃ items : List (UInt8 × Bytes), (∀ q ∈ items, q.1 &&& 0x1f ≠ 0x1f) ∧
    Ascending (items.map fun q => encode q.1 q.2) ∧ data = encode tagSet (encodeAll items)

/-- The items in the order of their encodings in a set. -/
def inOrder (items : List (UInt8 × Bytes)) : List (UInt8 × Bytes) :=
  items.mergeSort fun q r => (setOrder (encode q.1 q.2) (encode r.1 r.2)).isLE

/-- Takes a set apart and writes it again. -/
def rewriteSet (data : Bytes) : Except Error Bytes := do
  let outer ← read data
  let inner ← allElements outer.contents
  return encode tagSet (encodeAll (inOrder (inner.map fun e => (e.tag, e.contents))))

theorem ascending_inOrder (items : List (UInt8 × Bytes)) :
    Ascending ((inOrder items).map fun q => encode q.1 q.2) := by
  refine List.pairwise_map.2 (List.pairwise_mergeSort ?_ ?_ items)
  · intro q r s hqr hrs
    exact setOrder_trans hqr hrs
  · intro q r
    exact Bool.or_eq_true_iff.2 (setOrder_total ..)

theorem inOrder_of_ascending {items : List (UInt8 × Bytes)}
    (h : Ascending (items.map fun q => encode q.1 q.2)) : inOrder items = items :=
  List.mergeSort_of_pairwise (List.pairwise_map.1 h)

section

variable {data contents : Bytes} {inner : List Element}
  (hread : read data = .ok ⟨tagSet, data, contents⟩)
  (hinner : allElements contents = .ok inner)

include hread hinner

theorem eq_of_encode {items : List (UInt8 × Bytes)} (htags : ∀ q ∈ items, q.1 &&& 0x1f ≠ 0x1f)
    (hdata : data = encode tagSet (encodeAll items)) :
    contents = encodeAll items ∧ inner = items.map fun q => ⟨q.1, encode q.1 q.2, q.2⟩ := by
  rw [hdata, read_encode_eq_ok_iff (by decide)] at hread
  obtain ⟨hsize, heq⟩ := hread
  cases heq
  rw [allElements_encodeAll htags hsize] at hinner
  exact ⟨rfl, (Except.ok.inj hinner).symm⟩

/-- Whether a set is canonical can be seen from how it was read. -/
theorem isCanonicalSet_iff :
    IsCanonicalSet data ↔ encode tagSet contents = data ∧
      (∀ e ∈ inner, encode e.tag e.contents = e.raw) ∧ Ascending (inner.map (·.raw)) := by
  constructor
  · rintro ⟨items, htags, hascending, hdata⟩
    obtain ⟨rfl, rfl⟩ := eq_of_encode hread hinner htags hdata
    refine ⟨hdata.symm, ?_, ?_⟩
    · intro e he
      obtain ⟨q, -, rfl⟩ := List.mem_map.1 he
      rfl
    · rw [List.map_map]
      exact hascending
  · rintro ⟨hshort, hshortest, hascending⟩
    have helements := allElements_eq_ok_iff.1 hinner
    refine ⟨inner.map fun e => (e.tag, e.contents), ?_, ?_, ?_⟩
    · exact tags_of_allElements hinner
    · rw [List.map_map]
      exact List.map_congr_left hshortest ▸ hascending
    · have hflatten : encodeAll (inner.map fun e => (e.tag, e.contents)) = contents := by
        rw [encodeAll, List.flatMap_map, ← flatten_raw_of_elements helements, List.flatMap,
          List.map_congr_left hshortest]
      rw [hflatten, hshort]

/-- The canonical sets are those that are written again as they were. -/
theorem rewriteSet_eq_iff : rewriteSet data = .ok data ↔ IsCanonicalSet data := by
  have hrewrite : rewriteSet data = .ok _ :=
    Except.bind_eq_ok_iff.2 ⟨_, hread, Except.bind_eq_ok_iff.2 ⟨_, hinner, rfl⟩⟩
  rw [hrewrite, Except.ok.injEq]
  constructor
  · intro hdata
    refine ⟨_, ?_, ascending_inOrder _, hdata.symm⟩
    intro q hq
    rw [inOrder, List.mem_mergeSort] at hq
    exact tags_of_allElements hinner q hq
  · rintro ⟨items, htags, hascending, hdata⟩
    obtain ⟨rfl, rfl⟩ := eq_of_encode hread hinner htags hdata
    have hitems : (items.map fun q => (⟨q.1, encode q.1 q.2, q.2⟩ : Element)).map
        (fun e => (e.tag, e.contents)) = items := by
      rw [List.map_map]
      exact List.map_id items
    rw [hitems, inOrder_of_ascending hascending, hdata]

end

end Authenticode.Der
