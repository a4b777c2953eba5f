import Authenticode.Proofs.Attributes.Canonical

/-!
# Message digests in sets from outside

A value from outside is wrapped when the hash of the content is among the attributes it came
with. Nothing is said about the others: a set may hold a second hash, and then it depends on
which of the two a checker reads whether the attributes are about this content. The hashes that
are found in a wrapped signature are those of the set from outside, so they are all right
exactly when that set holds no other one.
-/
namespace Authenticode.Cms

namespace SignedAttribute

/-- Whether an element of a set is an attribute of this type, whatever stands behind the
identifier. -/
def isOfType (oid : Bytes) (e : Der.Element) : Bool :=
  match Der.item? e.contents 0 with
  | .ok (some kind) => kind.tag = Der.tagOid ∧ kind.contents = oid
  | _ => false

/-- The contents of the first value of an attribute, if one can be read. -/
def firstValue? (e : Der.Element) : Option Bytes :=
  match Der.item? e.contents 1 with
  | .ok (some set) =>
    match Der.item? set.contents 0 with
    | .ok (some value) => some value.contents
    | _ => none
  | _ => none

variable {a : SignedAttribute} {c : Bytes} {tag : UInt8} {e : Der.Element}

section

variable (hread : Der.read e.raw = .ok e) (hraw : e.raw = a.encode)
include hread hraw

theorem items_of_raw_eq : a.value.length < 2 ^ 32 ∧
    Der.item? e.contents 0 = .ok (some ⟨Der.tagOid, Der.encode Der.tagOid a.oid, a.oid⟩) ∧
    Der.item? e.contents 1 = .ok (some ⟨Der.tagSet, Der.encode Der.tagSet a.value, a.value⟩) := by
  have hencode : a.encode = Der.encode Der.tagSequence a.contents := rfl
  rw [hraw, hencode, Der.read_encode_eq_ok_iff (by decide), a.contents_eq] at hread
  obtain ⟨hsize, rfl⟩ := hread
  have htags : ∀ q ∈ [(Der.tagOid, a.oid), (Der.tagSet, a.value)], q.1 &&& 0x1f ≠ 0x1f := by
    simp
    decide
  have hvalue : a.value.length < 2 ^ 32 :=
    (Der.length_lt_length_encodeAll Der.tagSet (by simp)).trans hsize
  exact ⟨hvalue, Der.item?_encodeAll htags hsize 0 rfl, Der.item?_encodeAll htags hsize 1 rfl⟩

theorem isOfType_of_raw_eq (oid : Bytes) : isOfType oid e = true ↔ a.oid = oid := by
  obtain ⟨-, hkind, -⟩ := items_of_raw_eq hread hraw
  simp only [isOfType, hkind, true_and, decide_eq_true_eq]

theorem eq_of_raw_eq {b : SignedAttribute} (hb : e.raw = b.encode) : a = b := by
  obtain ⟨-, hkind, hvalue⟩ := items_of_raw_eq hread hraw
  obtain ⟨-, hkind', hvalue'⟩ := items_of_raw_eq hread hb
  rw [hkind] at hkind'
  rw [hvalue] at hvalue'
  simp only [Except.ok.injEq, Option.some.injEq, Der.Element.mk.injEq] at hkind' hvalue'
  cases a
  cases b
  cases hkind'.2.2
  cases hvalue'.2.2
  rfl

theorem firstValue?_of_raw_eq (htag : tag &&& 0x1f ≠ 0x1f) (hvalue : a.value = Der.encode tag c) :
    firstValue? e = some c := by
  obtain ⟨hsize, -, hset⟩ := items_of_raw_eq hread hraw
  rw [hvalue] at hsize hset
  have hfirst := Der.item?_encode tag htag ((Der.length_lt_length_encode tag c).trans hsize)
  simp only [firstValue?, hset, hfirst]

end

end SignedAttribute

namespace SignedAttributes

/-- The attributes of a type in a set, in the order in which they stand there. -/
def ofType (oid set : Bytes) : Except Error (List Der.Element) := do
  let outer ← Der.read set
  return (← Der.allElements outer.contents).filter (SignedAttribute.isOfType oid)

/-- A set from outside has the same attributes in the form that is signed. -/
theorem ofType_setDer_of_ofDer {set : SignedAttributes} {data : Bytes} (h : ofDer data = .ok set)
    (oid : Bytes) : ofType oid set.setDer = ofType oid data := by
  obtain ⟨e, inner, hread, -, -, -, rfl⟩ := ofDer_eq_ok_iff.1 h
  have hretagged := Der.read_retag hread (show Der.tagSet &&& 0x1f ≠ 0x1f by decide)
  unfold ofType
  rw [setDer, hretagged, hread]
  rfl

section

variable {attributes : List SignedAttribute}
  (hsize : (Der.encodeAll (items attributes)).length < 2 ^ 32)
include hsize

theorem read_encode_of_mem {a : SignedAttribute} (ha : a ∈ attributes) :
    Der.read a.encode = .ok ⟨Der.tagSequence, a.encode, a.contents⟩ := by
  refine Der.read_encode Der.tagSequence (by decide) ?_
  refine (Der.length_lt_length_encodeAll Der.tagSequence ?_).trans hsize
  exact List.mem_map_of_mem ((perm_sorted attributes).mem_iff.2 ha)

theorem exists_ofType_ofList (oid : Bytes) :
    ∃ found, ofType oid (ofList attributes).setDer = .ok found ∧ ∀ e, e ∈ found ↔
      ∃ a ∈ attributes, a.oid = oid ∧ e = ⟨Der.tagSequence, a.encode, a.contents⟩ := by
  have hall := Der.allElements_encodeAll lowTags_items hsize
  refine ⟨_, Except.bind_eq_ok_iff.2 ⟨_, read_setDer hsize, Except.bind_eq_ok_iff.2
    ⟨_, hall, rfl⟩⟩, ?_⟩
  intro e
  have htype : ∀ a ∈ attributes, SignedAttribute.isOfType oid
      ⟨Der.tagSequence, a.encode, a.contents⟩ = true ↔ a.oid = oid := fun a ha =>
    SignedAttribute.isOfType_of_raw_eq (read_encode_of_mem hsize ha) rfl oid
  rw [List.mem_filter]
  constructor
  · rintro ⟨he, hsame⟩
    obtain ⟨q, hq, rfl⟩ := List.mem_map.1 he
    obtain ⟨a, ha, rfl⟩ := List.mem_map.1 hq
    have hmem := (perm_sorted attributes).mem_iff.1 ha
    exact ⟨a, hmem, (htype a hmem).1 hsame, rfl⟩
  · rintro ⟨a, ha, hoid, rfl⟩
    refine ⟨?_, (htype a ha).2 hoid⟩
    exact List.mem_map_of_mem (List.mem_map_of_mem ((perm_sorted attributes).mem_iff.2 ha))

end

theorem exists_mem_ofType_of_contains {a : SignedAttribute} {set : SignedAttributes} {data : Bytes}
    (hset : ofDer data = .ok set) (h : set.contains a = true) :
    ∃ found, ofType a.oid set.setDer = .ok found ∧
      ∃ e ∈ found, e.raw = a.encode ∧ Der.read e.raw = .ok e := by
  have htag : Der.tagSet &&& 0x1f ≠ 0x1f := by decide
  obtain ⟨contents, inner, hread, hinner⟩ := exists_read_of_ofDer hset htag
  obtain ⟨_, hagain, e, he, hraw⟩ := contains_eq_true_iff.1 h
  cases hread.symm.trans hagain
  have heread := Der.read_raw_of_mem_elements he
  rw [Der.allElements_eq_ok_iff.1 hinner] at he
  obtain ⟨_, hmem, heq⟩ := List.mem_map.1 he
  cases heq
  refine ⟨inner.filter (SignedAttribute.isOfType a.oid), ?_, e, ?_, hraw, heread⟩
  · exact Except.bind_eq_ok_iff.2 ⟨_, hread, Except.bind_eq_ok_iff.2 ⟨_, hinner, rfl⟩⟩
  · exact List.mem_filter.2 ⟨hmem, (SignedAttribute.isOfType_of_raw_eq heread hraw _).2 rfl⟩

end SignedAttributes

namespace Signer

variable {who : Signer} {d : Digest} {raw : RawSignature} {s : Signature}
  {file attributesFile : Bytes}

/-- Once the expected attribute is in a set, no other attribute in it is looked at. -/
theorem wrap_ofList_cons_eq_ok_iff {expected : SignedAttribute} {others : List SignedAttribute}
    {value : Bytes}
    (hexpected : SignedAttribute.messageDigest (IndirectData.encode d) who.algorithm = .ok expected)
    (hsize : (Der.encodeAll (SignedAttributes.items (expected :: others))).length < 2 ^ 32) :
    who.wrap d ⟨value, .ofList (expected :: others)⟩ = .ok s ↔ d.algorithm = who.algorithm ∧
      who.assemble (IndirectData.encode d) (.ofList (expected :: others)) value = .ok s := by
  rw [wrap_eq_ok_iff]
  refine and_congr_right fun _ => and_iff_right ⟨expected, hexpected, ?_⟩
  exact (SignedAttributes.contains_ofList_iff hsize).2 (List.mem_cons_self ..)

/-- All attributes of a type are found alike in a set that was made with no other one. -/
theorem exists_ofType_cons {expected : SignedAttribute} {others : List SignedAttribute}
    (hsize : (Der.encodeAll (SignedAttributes.items (expected :: others))).length < 2 ^ 32) :
    ∃ found, SignedAttributes.ofType expected.oid
        (SignedAttributes.ofList (expected :: others)).setDer = .ok found ∧
      ((∀ e ∈ found, e.raw = expected.encode) ↔
        ∀ a ∈ others, a.oid = expected.oid → a = expected) := by
  obtain ⟨found, hfound, hmem⟩ := SignedAttributes.exists_ofType_ofList hsize expected.oid
  refine ⟨found, hfound, ?_, ?_⟩
  · intro hall a ha hoid
    have hin := List.mem_cons_of_mem expected ha
    have hread := SignedAttributes.read_encode_of_mem hsize hin
    exact SignedAttribute.eq_of_raw_eq hread rfl (hall _ ((hmem _).2 ⟨a, hin, hoid, rfl⟩))
  · intro hothers e he
    obtain ⟨a, ha, hoid, rfl⟩ := (hmem e).1 he
    rcases List.mem_cons.1 ha with rfl | ha
    · rfl
    · rw [hothers a ha hoid]

/-- A wrapped signature is about the digest it was wrapped for, with the attributes from outside.
The attributes in it with a hash are those that are found in the file it came from, and one of them
has the hash of the contents that are found. Any others may stand beside it: of a set that was made
with it, all attributes of its type are alike exactly when no other one of that type was put in. -/
theorem messageDigests_of_wrap (hraw : RawSignature.ofFiles file attributesFile = .ok raw)
    (h : who.wrap d raw = .ok s) : ∃ set expected parts found,
      Armor.strip attributesFile = .ok set ∧
      SignedAttribute.messageDigest (IndirectData.encode d) who.algorithm = .ok expected ∧
      s.content = .ok (some (IndirectData.encode d)) ∧ s.parts = .ok (some parts) ∧
      parts.digest = d.bytes ∧ parts.attributes = raw.attributes.setDer ∧
      SignedAttributes.ofType SignedAttribute.messageDigestOid parts.attributes = .ok found ∧
      SignedAttributes.ofType SignedAttribute.messageDigestOid set = .ok found ∧
      (∃ e ∈ found, e.raw = expected.encode ∧
        SignedAttribute.firstValue? e = some (who.algorithm.hash parts.contents)) ∧
      ∀ others value, ((expected :: others).map fun a => a.encode.length).sum < 2 ^ 32 →
        (∀ s', who.wrap d ⟨value, .ofList (expected :: others)⟩ = .ok s' ↔
          who.assemble (IndirectData.encode d) (.ofList (expected :: others)) value = .ok s') ∧
        ∃ found', SignedAttributes.ofType SignedAttribute.messageDigestOid
            (SignedAttributes.ofList (expected :: others)).setDer = .ok found' ∧
          ((∀ e ∈ found', e.raw = expected.encode) ↔
            ∀ a ∈ others, a.oid = SignedAttribute.messageDigestOid → a = expected) := by
  obtain ⟨outer, parts, hread, hparts, hdigest, hcontents, hattributes, -⟩ :=
    exists_parts_of_wrap hraw h
  obtain ⟨halgorithm, ⟨expected, hexpected, hcontains⟩, hassemble⟩ := wrap_eq_ok_iff.1 h
  obtain ⟨-, set, hset, htaken⟩ := RawSignature.exists_ofDer_of_ofFiles hraw
  obtain ⟨found, hfound, e, he, heraw, heread⟩ :=
    SignedAttributes.exists_mem_ofType_of_contains htaken hcontains
  have hself : expected = ⟨SignedAttribute.messageDigestOid,
      Der.encode Der.tagOctetString (who.algorithm.hash outer.contents)⟩ := by
    obtain ⟨_, hagain, h⟩ := Except.bind_eq_ok_iff.1 hexpected
    cases hread.symm.trans hagain
    exact (Except.ok.inj h).symm
  have hoid : expected.oid = SignedAttribute.messageDigestOid := by rw [hself]
  rw [hoid, ← hattributes] at hfound
  have hfile : SignedAttributes.ofType SignedAttribute.messageDigestOid set = .ok found := by
    rw [← SignedAttributes.ofType_setDer_of_ofDer htaken, ← hattributes]
    exact hfound
  have hhash : SignedAttribute.firstValue? e = some (who.algorithm.hash parts.contents) := by
    have htag : Der.tagOctetString &&& 0x1f ≠ 0x1f := by decide
    rw [hcontents]
    exact SignedAttribute.firstValue?_of_raw_eq heread heraw htag (by rw [hself])
  refine ⟨set, expected, parts, found, hset, hexpected, (content_of_assemble hassemble).2, hparts,
    hdigest, hattributes, hfound, hfile, ⟨e, he, heraw, hhash⟩, ?_⟩
  intro others value hsize
  rw [← SignedAttributes.length_items] at hsize
  refine ⟨fun s' => ?_, ?_⟩
  · rw [wrap_ofList_cons_eq_ok_iff hexpected hsize, and_iff_right halgorithm]
  · rw [← hoid]
    exact exists_ofType_cons hsize

/-- A set in which a hash of zeros stands beside the hash of the content. -/
theorem messageDigests_of_wrap_two :
    let who : Signer := ⟨.sha256, .least, 0⟩
    let d := Digest.zero .sha256
    let ofHash (hash : Bytes) : SignedAttribute :=
      ⟨SignedAttribute.messageDigestOid, Der.encode Der.tagOctetString hash⟩
    let set := SignedAttributes.ofList [ofHash (Bytes.zeros 32),
      ofHash (HashAlgorithm.sha256.hash ((IndirectData.encode d).drop 2))]
    RawSignature.ofFiles [0x5a] set.setDer = .ok ⟨[0x5a], set⟩ ∧
    ∃ s parts found, who.wrap d ⟨[0x5a], set⟩ = .ok s ∧ s.parts = .ok (some parts) ∧
      SignedAttributes.ofType SignedAttribute.messageDigestOid parts.attributes = .ok found ∧
      (∃ e ∈ found, SignedAttribute.firstValue? e
        = some (HashAlgorithm.sha256.hash parts.contents)) ∧
      ∃ e ∈ found, SignedAttribute.firstValue? e
        ≠ some (HashAlgorithm.sha256.hash parts.contents) := by
  intro who d ofHash set
  have hraw : RawSignature.ofFiles [0x5a] set.setDer = .ok ⟨[0x5a], set⟩ := by decide +kernel
  have hwrapped : (who.wrap d ⟨[0x5a], set⟩).isOk = true := by decide +kernel
  refine ⟨hraw, ?_⟩
  cases hs : who.wrap d ⟨[0x5a], set⟩ with
  | error f =>
    rw [hs] at hwrapped
    cases hwrapped
  | ok s =>
    obtain ⟨_, expected, parts, found, -, -, -, hparts, -, hattributes, hfound, -,
      ⟨e, he, -, hhash⟩, -⟩ := messageDigests_of_wrap hraw hs
    refine ⟨s, parts, found, rfl, hparts, hfound, ⟨e, he, hhash⟩, ?_⟩
    have hdiffer : (SignedAttributes.ofType SignedAttribute.messageDigestOid set.setDer).map
        (fun found => decide (∀ e ∈ found, ∀ e' ∈ found,
          SignedAttribute.firstValue? e = SignedAttribute.firstValue? e')) = .ok false := by
      decide +kernel
    rw [hattributes] at hfound
    rw [hfound] at hdiffer
    by_contra hnone
    push Not at hnone
    refine of_decide_eq_false (Except.ok.inj hdiffer) fun e he e' he' => ?_
    rw [hnone e he, hnone e' he']

end Signer

end Authenticode.Cms
