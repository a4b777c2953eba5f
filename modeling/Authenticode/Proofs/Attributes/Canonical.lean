import Authenticode.Proofs.RawSignature
import Authenticode.Proofs.Der.Canonical

/-!
# Canonical sets of attributes

Attributes are sorted by the plain order of their encodings. As no element begins another one,
this is the order of a set, so a list of attributes and all its permutations give one set, which
has the attributes of the list and is taken back from its octets: `ofList_setOf`. A set from
outside is not sorted again. It keeps the octets over which its value was computed, and these are
canonical exactly when whoever wrote them took care of it: `isCanonicalSet_setDer_iff`.
-/
namespace Authenticode.Cms.SignedAttributes

variable {a : SignedAttribute} {attributes other : List SignedAttribute} {data : Bytes}
  {s : SignedAttributes}

theorem pairwise_insertSorted
    (h : attributes.Pairwise fun a b => (compare a.encode b.encode).isLE) :
    (insertSorted a attributes).Pairwise fun a b => (compare a.encode b.encode).isLE := by
  induction attributes with
  | nil => exact List.pairwise_singleton _ a
  | cons b rest ih =>
    obtain ⟨hb, hrest⟩ := List.pairwise_cons.1 h
    unfold insertSorted
    split
    · next hab =>
      refine List.pairwise_cons.2 ⟨?_, h⟩
      intro c hc
      rcases List.mem_cons.1 hc with rfl | hmem
      · exact hab
      · exact Std.TransCmp.isLE_trans hab (hb c hmem)
    · next hab =>
      have hba : (compare b.encode a.encode).isLE := by
        rw [Std.OrientedOrd.eq_swap]
        revert hab
        cases compare a.encode b.encode <;> decide
      refine List.pairwise_cons.2 ⟨?_, ih hrest⟩
      intro c hc
      rcases List.mem_cons.1 ((perm_insertSorted a rest).mem_iff.1 hc) with rfl | hmem
      · exact hba
      · exact hb c hmem

theorem pairwise_sorted (attributes : List SignedAttribute) :
    ((sorted attributes).map SignedAttribute.encode).Pairwise fun x y => (compare x y).isLE := by
  rw [List.pairwise_map]
  induction attributes with
  | nil => exact .nil
  | cons a rest ih => exact pairwise_insertSorted ih

theorem map_encode_sorted_congr (h : other.Perm attributes) :
    (sorted other).map SignedAttribute.encode = (sorted attributes).map SignedAttribute.encode := by
  have hperm := (perm_sorted other).trans (h.trans (perm_sorted attributes).symm)
  refine List.Perm.eq_of_pairwise ?_ (pairwise_sorted other) (pairwise_sorted attributes)
    (hperm.map _)
  intro x y _ _ hxy hyx
  exact Std.compare_eq_iff_eq.1 (Std.OrientedCmp.isLE_antisymm hxy hyx)

theorem ofList_congr (h : other.Perm attributes) : ofList other = ofList attributes := by
  unfold ofList
  rw [List.flatMap, List.flatMap, map_encode_sorted_congr h]

/-- Attributes in the plain order of their encodings are in the order of a set as well. -/
theorem ascending_items (attributes : List SignedAttribute) :
    Der.Ascending ((items attributes).map fun q => Der.encode q.1 q.2) := by
  rw [map_encode_items]
  exact (pairwise_sorted attributes).imp Der.setOrder_isLE_of_compare

/-- A set of attributes is the same in whatever order these are given. Its elements are their
encodings, each as often as it was given, in the one order in which they can stand in a set. The
attributes that are found in it are those that have one of these encodings. And it is taken back
from its octets under either tag, whatever stands behind them. -/
theorem ofList_setOf (hsize : (attributes.map fun a => a.encode.length).sum < 2 ^ 32) :
    (∀ other, other.Perm attributes → ofList other = ofList attributes) ∧
    (∃ (contents : Bytes) (inner : List Der.Element),
      Der.read (ofList attributes).setDer
        = .ok ⟨Der.tagSet, (ofList attributes).setDer, contents⟩ ∧
      Der.elements contents = inner.map .ok ∧
      (inner.map (·.raw)).Perm (attributes.map (·.encode)) ∧
      Der.Ascending (inner.map (·.raw)) ∧
      ∀ parts, parts.Perm (attributes.map (·.encode)) → Der.Ascending parts →
        parts = inner.map (·.raw)) ∧
    (∀ a, (ofList attributes).contains a = true ↔ a.encode ∈ attributes.map (·.encode)) ∧
    ∀ tail, ofDer ((ofList attributes).setDer ++ tail) = .ok (ofList attributes) ∧
      ofDer ((ofList attributes).implicitDer ++ tail) = .ok (ofList attributes) := by
  have hitems : (Der.encodeAll (items attributes)).length < 2 ^ 32 := by
    rwa [length_items]
  have hinner := Der.allElements_encodeAll lowTags_items hitems
  have hraw : ((items attributes).map fun q => (⟨q.1, Der.encode q.1 q.2, q.2⟩ : Der.Element)).map
      (·.raw) = (items attributes).map fun q => Der.encode q.1 q.2 := by
    rw [List.map_map]
    rfl
  have hperm : ((items attributes).map fun q => Der.encode q.1 q.2).Perm
      (attributes.map (·.encode)) := by
    rw [map_encode_items]
    exact (perm_sorted attributes).map _
  refine ⟨fun other hother => ofList_congr hother,
    ⟨_, _, read_setDer hitems, Der.allElements_eq_ok_iff.1 hinner, ?_, ?_, ?_⟩,
    fun a => contains_ofList_iff hitems, fun tail =>
      ⟨ofDer_cons_body_append (.inl rfl) hitems tail,
        ofDer_cons_body_append (.inr rfl) hitems tail⟩⟩
  · rw [hraw]
    exact hperm
  · rw [hraw]
    exact ascending_items attributes
  · intro parts hparts hascending
    refine (Der.Ascending.eq_of_perm ?_ hascending ?_ ?_).symm
    · rw [hraw]
      exact ascending_items attributes
    · exact Der.isElement_of_allElements hinner
    · rw [hraw]
      exact hperm.trans hparts.symm

/-- An attribute that is given twice, and one that is not given. -/
theorem ofList_setOf_repeated :
    let set := ofList [.opusInfo, .contentType, .opusInfo]
    ofList [.contentType, .opusInfo, .opusInfo] = set ∧
    (∃ (contents : Bytes) (inner : List Der.Element),
      Der.read set.setDer = .ok ⟨Der.tagSet, set.setDer, contents⟩ ∧
      Der.elements contents = inner.map .ok ∧
      inner.map (·.raw) = [SignedAttribute.opusInfo.encode, SignedAttribute.opusInfo.encode,
        SignedAttribute.contentType.encode]) ∧
    set.contains .statementType = false ∧ ofDer (set.implicitDer ++ [0, 0]) = .ok set := by
  have hsize : (([.opusInfo, .contentType, .opusInfo] : List SignedAttribute).map
      fun a => a.encode.length).sum < 2 ^ 32 := by decide +kernel
  obtain ⟨hperm, ⟨contents, inner, hread, helements, -, -, hunique⟩, hcontains, htaken⟩ :=
    ofList_setOf hsize
  refine ⟨hperm _ (.swap ..), ⟨contents, inner, hread, helements, ?_⟩, ?_, (htaken [0, 0]).2⟩
  · exact (hunique _ (by decide +kernel) (by decide +kernel)).symm
  · rw [Bool.eq_false_iff, ne_eq, hcontains]
    decide +kernel

/-- A set that was made is canonical. A set that was taken from outside keeps the octets behind its
tag, so it is canonical exactly when all lengths in these took the shortest form and the attributes
stood in the order of a set; otherwise whoever takes it apart and writes it again does not get the
octets that were signed. -/
theorem isCanonicalSet_setDer_iff (attributes : List SignedAttribute) (h : ofDer data = .ok s) :
    Der.IsCanonicalSet (ofList attributes).setDer ∧
    ((attributes.map fun a => a.encode.length).sum < 2 ^ 32 →
      Der.rewriteSet (ofList attributes).setDer = .ok (ofList attributes).setDer) ∧
    ∃ (outer : Der.Element) (inner : List Der.Element),
      Der.read data = .ok outer ∧ Der.allElements outer.contents = .ok inner ∧
      s.setDer = Der.tagSet :: outer.raw.drop 1 ∧
      (Der.IsCanonicalSet s.setDer ↔
        Der.encode outer.tag outer.contents = outer.raw ∧
          (∀ e ∈ inner, Der.encode e.tag e.contents = e.raw) ∧
          Der.Ascending (inner.map (·.raw))) ∧
      (Der.rewriteSet s.setDer = .ok s.setDer ↔ Der.IsCanonicalSet s.setDer) := by
  have hmade : Der.IsCanonicalSet (ofList attributes).setDer :=
    ⟨items attributes, lowTags_items, ascending_items attributes, setDer_ofList attributes⟩
  refine ⟨hmade, ?_, ?_⟩
  · intro hsize
    have hitems : (Der.encodeAll (items attributes)).length < 2 ^ 32 := by
      rwa [length_items]
    exact (Der.rewriteSet_eq_iff (read_setDer hitems)
      (Der.allElements_encodeAll lowTags_items hitems)).2 hmade
  · obtain ⟨outer, inner, hread, -, hinner, -, rfl⟩ := ofDer_eq_ok_iff.1 h
    have hset : Der.read (Der.tagSet :: outer.raw.drop 1)
        = .ok ⟨Der.tagSet, Der.tagSet :: outer.raw.drop 1, outer.contents⟩ :=
      Der.read_retag hread (by decide)
    refine ⟨outer, inner, hread, hinner, rfl, ?_, Der.rewriteSet_eq_iff hset hinner⟩
    rw [show setDer ⟨outer.raw.drop 1⟩ = Der.tagSet :: outer.raw.drop 1 from rfl,
      Der.isCanonicalSet_iff hset hinner, Der.encode_retag_iff hread]

/-- Two attributes in descending order are taken as they are, and so is a set whose length takes
one octet more than it needs. -/
theorem isCanonicalSet_setDer_iff_reversed :
    let reversed := Der.encodeParts Der.tagSet
      [SignedAttribute.contentType.encode, SignedAttribute.opusInfo.encode]
    let longer := [Der.tagSet, 0x81, 2, Der.tagSequence, 0]
    (∃ s, ofDer reversed = .ok s ∧ s.setDer = reversed ∧ ¬Der.IsCanonicalSet s.setDer ∧
      Der.rewriteSet s.setDer ≠ .ok s.setDer) ∧
    ∃ s, ofDer longer = .ok s ∧ s.setDer = longer ∧ ¬Der.IsCanonicalSet s.setDer := by
  intro reversed longer
  have hreversed : ofDer reversed = .ok ⟨reversed.drop 1⟩ := by decide +kernel
  have hlonger : ofDer longer = .ok ⟨longer.drop 1⟩ := by decide +kernel
  constructor
  · obtain ⟨-, -, outer, inner, hread, hinner, hset, hiff, hrewrite⟩ :=
      isCanonicalSet_setDer_iff [] hreversed
    have houter : Der.read reversed = .ok ⟨Der.tagSet, reversed, reversed.drop 2⟩ := by
      decide +kernel
    cases houter.symm.trans hread
    have hitems : Der.allElements (reversed.drop 2) = .ok
        ([SignedAttribute.contentType, .opusInfo].map fun a =>
          ⟨Der.tagSequence, a.encode, a.contents⟩) := by
      decide +kernel
    cases hitems.symm.trans hinner
    have hnot : ¬Der.IsCanonicalSet (setDer ⟨reversed.drop 1⟩) := by
      rw [hiff]
      rintro ⟨-, -, hascending⟩
      exact absurd hascending (by decide +kernel)
    exact ⟨_, hreversed, hset, hnot, mt hrewrite.1 hnot⟩
  · obtain ⟨-, -, outer, inner, hread, -, hset, hiff, -⟩ := isCanonicalSet_setDer_iff [] hlonger
    have houter : Der.read longer = .ok ⟨Der.tagSet, longer, longer.drop 3⟩ := by decide +kernel
    cases houter.symm.trans hread
    refine ⟨_, hlonger, hset, ?_⟩
    rw [hiff]
    rintro ⟨hshort, -⟩
    exact absurd hshort (by decide +kernel)

end Authenticode.Cms.SignedAttributes
