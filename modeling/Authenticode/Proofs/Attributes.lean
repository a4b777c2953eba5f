import Authenticode.Cms.Attributes
import Authenticode.Proofs.Armor
import Authenticode.Proofs.Der

/-!
# Sets of attributes

A set of attributes is written in a sorted order, but it is still the set of the
attributes that it was made of: it is read back as it was written, and each of them is
found in it. How long it is depends on the lengths of its attributes alone.
-/
namespace Authenticode.Cms

variable {a b : SignedAttribute} {attributes : List SignedAttribute} {c c' data : Bytes}
  {algorithm : HashAlgorithm} {now now' : Int} {r r' s : SignedAttributes} {tag : UInt8}

theorem Time.length_ofText_twoDigits (n : Nat) : (Bytes.ofText (twoDigits n)).length = 2 := by
  have hdigit : ∀ d < 10, (String.utf8EncodeChar (Nat.digitChar d)).length = 1 := by decide
  have htens := hdigit (n / 10 % 10) (Nat.mod_lt _ (by decide))
  have hones := hdigit (n % 10) (Nat.mod_lt _ (by decide))
  rw [Bytes.ofText_eq_flatMap, twoDigits, String.toList_ofList]
  simp only [List.flatMap_cons, List.flatMap_nil, List.length_append, htens, hones, List.length_nil]

theorem Time.length_of_encode (h : encode now = .ok c) : c.length = 15 := by
  unfold encode at h
  split at h
  · cases h
    have hfield := length_ofText_twoDigits
    simp only [Bytes.ofText_eq_flatMap] at hfield
    have htext : (Bytes.ofText (text now.toNat)).length = 13 := by
      rw [Bytes.ofText_eq_flatMap, text, String.toList_append, String.toList_join]
      simp only [List.map_cons, List.map_nil, List.flatMap_cons, List.flatMap_nil,
        List.flatMap_append, List.length_append, hfield, List.length_nil]
      rfl
    rw [Der.length_encode, htext]
    rfl
  · cases h

theorem SignedAttribute.length_of_signingTime (h : signingTime now = .ok a)
    (h' : signingTime now' = .ok b) : a.encode.length = b.encode.length := by
  obtain ⟨time, htime, h⟩ := Except.bind_eq_ok_iff.1 h
  obtain ⟨time', htime', h'⟩ := Except.bind_eq_ok_iff.1 h'
  cases h
  cases h'
  simp only [encode, Der.encodeParts, Der.length_encode, List.length_flatten, List.map_cons,
    Time.length_of_encode htime, Time.length_of_encode htime']

def SignedAttribute.contents (a : SignedAttribute) : Bytes :=
  [Der.encodeOid a.oid, Der.encode Der.tagSet a.value].flatten

theorem SignedAttribute.contents_eq (a : SignedAttribute) :
    a.contents = Der.encodeAll [(Der.tagOid, a.oid), (Der.tagSet, a.value)] := by
  simp only [contents, Der.encodeAll, Der.encodeOid, List.flatMap_cons, List.flatMap_nil,
    List.flatten_cons, List.flatten_nil]

theorem SignedAttribute.length_of_messageDigest (h : messageDigest c algorithm = .ok a)
    (h' : messageDigest c' algorithm = .ok b) : a.encode.length = b.encode.length := by
  obtain ⟨e, -, h⟩ := Except.bind_eq_ok_iff.1 h
  obtain ⟨e', -, h'⟩ := Except.bind_eq_ok_iff.1 h'
  cases h
  cases h'
  simp only [encode, Der.encodeParts, Der.length_encode, List.length_flatten, List.map_cons,
    HashAlgorithm.length_hash]

namespace SignedAttributes

theorem perm_insertSorted (a : SignedAttribute) (attributes : List SignedAttribute) :
    (insertSorted a attributes).Perm (a :: attributes) := by
  induction attributes with
  | nil => exact .refl _
  | cons b rest ih =>
    unfold insertSorted
    split
    · exact .refl _
    · exact (ih.cons b).trans (.swap a b rest)

theorem perm_sorted (attributes : List SignedAttribute) :
    (sorted attributes).Perm attributes := by
  induction attributes with
  | nil => exact .refl _
  | cons a rest ih => exact (perm_insertSorted a _).trans (ih.cons a)

def items (attributes : List SignedAttribute) : List (UInt8 × Bytes) :=
  (sorted attributes).map fun a => (Der.tagSequence, a.contents)

theorem setDer_ofList (attributes : List SignedAttribute) :
    (ofList attributes).setDer = Der.encode Der.tagSet (Der.encodeAll (items attributes)) := by
  unfold Der.encodeAll items
  rw [List.flatMap_map]
  rfl

theorem implicitDer_ofList (attributes : List SignedAttribute) :
    (ofList attributes).implicitDer
      = Der.encode Der.tagContext0 (Der.encodeAll (items attributes)) := by
  unfold Der.encodeAll items
  rw [List.flatMap_map]
  rfl

theorem tag_of_mem_items {q : UInt8 × Bytes} (hq : q ∈ items attributes) :
    q.1 = Der.tagSequence := by
  obtain ⟨a, -, rfl⟩ := List.mem_map.1 hq
  rfl

theorem lowTags_items : ∀ q ∈ items attributes, q.1 &&& 0x1f ≠ 0x1f := by
  intro q hq
  rw [tag_of_mem_items hq]
  decide

theorem map_encode_items (attributes : List SignedAttribute) :
    (items attributes).map (fun q => Der.encode q.1 q.2)
      = (sorted attributes).map SignedAttribute.encode := by
  rw [items, List.map_map]
  rfl

theorem length_items (attributes : List SignedAttribute) :
    (Der.encodeAll (items attributes)).length
      = (attributes.map fun a => a.encode.length).sum := by
  unfold Der.encodeAll items
  rw [List.flatMap_map, List.length_flatMap]
  exact ((perm_sorted attributes).map _).sum_eq

theorem length_body_ofList (attributes : List SignedAttribute) :
    let n := (attributes.map fun a => a.encode.length).sum
    (ofList attributes).body.length = (Der.encodeLength n).length + n := by
  have hset : (ofList attributes).setDer.length = (ofList attributes).body.length + 1 := rfl
  rw [setDer_ofList, Der.length_encode, length_items] at hset
  dsimp only
  omega

theorem length_items_lt_length_setDer (attributes : List SignedAttribute) :
    (Der.encodeAll (items attributes)).length < (ofList attributes).setDer.length := by
  rw [setDer_ofList]
  exact Der.length_lt_length_encode _ _

theorem read_setDer (hsize : (Der.encodeAll (items attributes)).length < 2 ^ 32) :
    Der.read (ofList attributes).setDer
      = .ok ⟨Der.tagSet, (ofList attributes).setDer, Der.encodeAll (items attributes)⟩ := by
  rw [setDer_ofList]
  exact Der.read_encode Der.tagSet (by decide) hsize

theorem elements_items (hsize : (Der.encodeAll (items attributes)).length < 2 ^ 32) :
    Der.elements (Der.encodeAll (items attributes))
      = (items attributes).map fun q => .ok ⟨q.1, Der.encode q.1 q.2, q.2⟩ :=
  Der.elements_encodeAll lowTags_items hsize

theorem ofDer_eq_ok_iff :
    ofDer data = .ok s ↔ ∃ e inner, Der.read data = .ok e ∧
      (e.tag = Der.tagSet ∨ e.tag = Der.tagContext0) ∧ Der.allElements e.contents = .ok inner ∧
      (∀ x ∈ inner, x.tag = Der.tagSequence) ∧ s = ⟨e.raw.drop 1⟩ := by
  have hitem : ∀ (item : Except Error Der.Element) (r : ForInStep PUnit), (do
      if (← item).tag ≠ Der.tagSequence then throw (.signature .attributeNotSequence)
      return .yield ⟨⟩ : Except Error (ForInStep PUnit)) = .ok r ↔
        ∃ x, item = .ok x ∧ x.tag = Der.tagSequence ∧ r = .yield ⟨⟩ := by
    intro item r
    rw [Except.bind_eq_ok_iff]
    refine exists_congr fun x => and_congr_right fun _ => ?_
    split_ifs with htag
    · exact ⟨nofun, fun h => absurd h.1 htag⟩
    · exact ⟨fun h => ⟨not_not.1 htag, (Except.ok.inj h).symm⟩, fun h => congrArg _ h.2.symm⟩
  have hloop : ∀ e : Der.Element, (forIn (Der.elements e.contents) PUnit.unit fun item _ => (do
      if (← item).tag ≠ Der.tagSequence then throw (.signature .attributeNotSequence)
      return .yield ⟨⟩ : Except Error (ForInStep PUnit))) = .ok ⟨⟩ ↔
        ∃ inner, Der.allElements e.contents = .ok inner ∧ ∀ x ∈ inner, x.tag = Der.tagSequence := by
    intro e
    rw [Except.forIn_eq_ok_iff]
    · simp only [hitem, and_true]
      exact Der.forall_elements_iff
    · intro item r h
      obtain ⟨-, -, -, h⟩ := (hitem item r).1 h
      exact h
  unfold ofDer
  simp only [Except.bind_eq_ok_iff]
  constructor
  · rintro ⟨e, hread, h⟩
    split_ifs at h with htag
    · cases h
    · obtain ⟨⟨⟩, hitems, h⟩ := Except.bind_eq_ok_iff.1 h
      obtain ⟨inner, hinner, htags⟩ := (hloop e).1 hitems
      exact ⟨e, inner, hread, by tauto, hinner, htags, (Except.ok.inj h).symm⟩
  · rintro ⟨e, inner, hread, htag, hinner, htags, rfl⟩
    refine ⟨e, hread, ?_⟩
    rw [if_neg (by tauto)]
    exact Except.bind_eq_ok_iff.2 ⟨⟨⟩, (hloop e).2 ⟨inner, hinner, htags⟩, rfl⟩

/-- A set is taken from outside under either of its tags, whatever stands behind it. -/
theorem ofDer_cons_body_append (htag : tag = Der.tagSet ∨ tag = Der.tagContext0)
    (hsize : (Der.encodeAll (items attributes)).length < 2 ^ 32) (tail : Bytes) :
    ofDer (tag :: (ofList attributes).body ++ tail) = .ok (ofList attributes) := by
  have htags : tag &&& 0x1f ≠ 0x1f := by
    rcases htag with rfl | rfl <;> decide
  have hset : tag :: (ofList attributes).body = Der.encode tag (Der.encodeAll (items attributes)) :=
    congrArg (tag :: ·) (List.tail_eq_of_cons_eq (setDer_ofList attributes))
  have hread := Der.read_encode_append htags (Der.encodeAll (items attributes)) tail
  rw [if_pos hsize, ← hset] at hread
  have hinner := Der.allElements_encodeAll lowTags_items hsize
  refine ofDer_eq_ok_iff.2 ⟨_, _, hread, htag, hinner, ?_, rfl⟩
  intro x hx
  obtain ⟨q, hq, rfl⟩ := List.mem_map.1 hx
  exact tag_of_mem_items hq

theorem contains_eq_true_iff :
    s.contains a = true ↔ ∃ outer, Der.read s.setDer = .ok outer ∧
      ∃ e, .ok e ∈ Der.elements outer.contents ∧ e.raw = a.encode := by
  unfold contains
  cases hread : Der.read s.setDer with
  | error f => exact ⟨nofun, fun ⟨_, h, _⟩ => nomatch h⟩
  | ok outer =>
    dsimp only
    rw [List.any_eq_true]
    constructor
    · rintro ⟨item, hitem, h⟩
      cases item with
      | error f => cases h
      | ok e => exact ⟨outer, rfl, e, hitem, beq_iff_eq.1 h⟩
    · rintro ⟨_, heq, e, he, hraw⟩
      cases heq
      exact ⟨.ok e, he, beq_iff_eq.2 hraw⟩

/-- Exactly the attributes of which a set was made are found in it. -/
theorem contains_ofList_iff (hsize : (Der.encodeAll (items attributes)).length < 2 ^ 32) :
    (ofList attributes).contains a = true ↔ a.encode ∈ attributes.map SignedAttribute.encode := by
  have hperm := ((perm_sorted attributes).map SignedAttribute.encode).mem_iff (a := a.encode)
  rw [contains_eq_true_iff, read_setDer hsize, ← hperm, ← map_encode_items]
  constructor
  · rintro ⟨_, heq, e, he, hraw⟩
    cases heq
    rw [elements_items hsize] at he
    obtain ⟨q, hq, heq⟩ := List.mem_map.1 he
    cases heq
    exact List.mem_map.2 ⟨q, hq, hraw⟩
  · intro h
    obtain ⟨q, hq, hraw⟩ := List.mem_map.1 h
    refine ⟨_, rfl, ⟨q.1, Der.encode q.1 q.2, q.2⟩, ?_, hraw⟩
    rw [elements_items hsize]
    exact List.mem_map_of_mem hq

theorem ofContent_eq_ok_iff :
    ofContent c algorithm now = .ok r ↔ ∃ time digest,
      SignedAttribute.signingTime now = .ok time ∧
      SignedAttribute.messageDigest c algorithm = .ok digest ∧
      r = ofList [.contentType, time, digest, .statementType, .opusInfo] := by
  simp only [ofContent, Except.bind_eq_ok_iff]
  constructor
  · rintro ⟨time, htime, digest, hdigest, h⟩
    exact ⟨time, digest, htime, hdigest, (Except.ok.inj h).symm⟩
  · rintro ⟨time, digest, htime, hdigest, rfl⟩
    exact ⟨time, htime, digest, hdigest, rfl⟩

theorem length_body_of_ofContent (h : ofContent c algorithm now = .ok r)
    (h' : ofContent c' algorithm now' = .ok r') : r.body.length = r'.body.length := by
  obtain ⟨time, digest, htime, hdigest, rfl⟩ := ofContent_eq_ok_iff.1 h
  obtain ⟨time', digest', htime', hdigest', rfl⟩ := ofContent_eq_ok_iff.1 h'
  simp only [length_body_ofList, List.map_cons,
    SignedAttribute.length_of_messageDigest hdigest hdigest',
    SignedAttribute.length_of_signingTime htime htime']

/-- What is exported for an outside signer is taken back as the set it was, with the hash of the
content in it. -/
theorem ofDer_setDer_of_ofContent (h : ofContent c algorithm now = .ok r)
    (hsize : r.setDer.length < 2 ^ 32) :
    ofDer r.setDer = .ok r ∧
      ∃ digest, SignedAttribute.messageDigest c algorithm = .ok digest ∧
        r.contains digest = true := by
  obtain ⟨time, digest, -, hdigest, rfl⟩ := ofContent_eq_ok_iff.1 h
  have hitems := (length_items_lt_length_setDer _).trans hsize
  have htaken := ofDer_cons_body_append (.inl rfl) hitems []
  rw [List.append_nil] at htaken
  refine ⟨htaken, digest, hdigest, (contains_ofList_iff hitems).2 ?_⟩
  exact List.mem_map_of_mem (by simp)

end SignedAttributes

end Authenticode.Cms
