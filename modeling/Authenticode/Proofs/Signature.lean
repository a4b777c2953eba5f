import Authenticode.Cms.SignedData
import Authenticode.Proofs.Der

/-!
# What a signature is about

A signature carries the digest of an image inside its content, several elements
deep. This module says where the digest stands, and that a signature which was made
for a digest carries that digest: all elements on the way are read back as they were
written.
-/
namespace Authenticode.Cms

variable {s : Signature} {data c value : Bytes} {d : Digest}

/-- The digest octets in the content of a signature. The last item holds an algorithm and the
octets. -/
def IndirectData.digestOctets (content : Bytes) : Except Error (Option Bytes) := do
  let outer ← Der.read content
  let some info ← Der.item? outer.contents 1 | return none
  let some octets := (← Der.item? info.contents 1).filter (·.tag = Der.tagOctetString)
    | return none
  return some octets.contents

namespace Signature

/-- The content that was signed: the third field holds it behind an identifier and under a context
tag. -/
def content (s : Signature) : Except Error (Option Bytes) := do
  let some info := (← s.fields)[2]? | return none
  let kind ← Der.item? info.contents 0
  if kind.map (·.contents) ≠ some IndirectData.oid then return none
  let some wrapper := (← Der.item? info.contents 1).filter (·.tag = Der.tagContext0) | return none
  return some wrapper.contents

def digestOctets (s : Signature) : Except Error (Option Bytes) := do
  let some content ← s.content | return none
  IndirectData.digestOctets content

theorem ofDer_eq_ok_iff :
    ofDer data = .ok s ↔ ∃ outer kind, Der.read data = .ok outer ∧ outer.tag = Der.tagSequence ∧
      Der.item? outer.contents 0 = .ok (some kind) ∧ kind.tag = Der.tagOid ∧
      kind.contents = signedDataOid ∧ s = ⟨outer.raw⟩ := by
  unfold ofDer
  rw [Except.bind_eq_ok_iff]
  apply exists_congr
  intro outer
  dsimp only
  by_cases htag : outer.tag = Der.tagSequence
  · rw [if_neg (not_not.2 htag), Except.bind_eq_ok_iff]
    constructor
    · rintro ⟨hread, item, hitem, h⟩
      cases item with
      | none => cases h
      | some kind =>
        dsimp only at h
        split at h
        · next hkind =>
          cases h
          exact ⟨kind, hread, htag, hitem, hkind.1, hkind.2, rfl⟩
        · cases h
    · rintro ⟨kind, hread, -, hitem, hoid, hcontents, rfl⟩
      refine ⟨hread, some kind, hitem, ?_⟩
      dsimp only
      rw [if_pos ⟨hoid, hcontents⟩]
      rfl
  · rw [if_pos htag]
    constructor
    · rintro ⟨-, h⟩
      cases h
    · rintro ⟨_, -, h, -⟩
      exact absurd h htag

theorem length_le_of_ofDer (h : ofDer data = .ok s) : s.length ≤ data.length := by
  obtain ⟨outer, kind, hread, -, -, -, -, rfl⟩ := ofDer_eq_ok_iff.1 h
  exact Der.length_raw_le_of_read hread

theorem ofDer_der_append (h : ofDer data = .ok s) (tail : Bytes) :
    ofDer (s.der ++ tail) = .ok s := by
  obtain ⟨outer, kind, hread, hrest, hitem, hoid, hcontents, rfl⟩ := ofDer_eq_ok_iff.1 h
  exact ofDer_eq_ok_iff.2
    ⟨outer, kind, Der.read_raw_append hread tail, hrest, hitem, hoid, hcontents, rfl⟩

end Signature

/-- Signed data is taken as a signature unless it is too long to be read. -/
theorem Signature.ofDer_signedData_eq_ok_iff :
    let outer := Der.encodeAll [(Der.tagOid, signedDataOid), (Der.tagContext0, c)]
    ofDer (Der.encode Der.tagSequence outer) = .ok s ↔
      outer.length < 2 ^ 32 ∧ s = ⟨Der.encode Der.tagSequence outer⟩ := by
  dsimp only
  rw [ofDer_eq_ok_iff]
  constructor
  · rintro ⟨outer, kind, hread, -, -, -, -, rfl⟩
    obtain ⟨hsize, rfl⟩ := (Der.read_encode_eq_ok_iff (by decide)).1 hread
    exact ⟨hsize, rfl⟩
  · rintro ⟨hsize, rfl⟩
    exact ⟨_, _, Der.read_encode Der.tagSequence (by decide) hsize, rfl,
      Der.item?_encodeAll (by simp; decide) hsize 0 rfl, rfl, rfl, rfl⟩

namespace Signer

/-- What a signature says about its signer. -/
def signerInfo (who : Signer) (identifier : Bytes) (attributes : SignedAttributes) (value : Bytes) :
    Bytes :=
  Der.encodeParts Der.tagSequence
    [version, signerName who.identity.certificate, who.algorithm.identifier, attributes.implicitDer,
      identifier, Der.encode Der.tagOctetString value]

def signedData (who : Signer) (identifier content : Bytes) (attributes : SignedAttributes)
    (value : Bytes) : Bytes :=
  Der.encodeParts Der.tagSequence
    [version, Der.encode Der.tagSet who.algorithm.identifier,
      Der.encodeParts Der.tagSequence
        [Der.encodeOid IndirectData.oid, Der.encode Der.tagContext0 content],
      Der.encode Der.tagContext0 who.identity.certificate.der,
      Der.encode Der.tagSet (who.signerInfo identifier attributes value)]

theorem assemble_eq_ok_iff {who : Signer} {attributes : SignedAttributes} :
    who.assemble c attributes value = .ok s ↔ ∃ identifier,
      who.signatureIdentifier = .ok identifier ∧
      (Der.encodeAll [(Der.tagOid, Signature.signedDataOid),
        (Der.tagContext0, who.signedData identifier c attributes value)]).length < 2 ^ 32 ∧
      s = ⟨Der.encodeParts Der.tagSequence [Der.encodeOid Signature.signedDataOid,
        Der.encode Der.tagContext0 (who.signedData identifier c attributes value)]⟩ := by
  simp only [assemble, Except.bind_eq_ok_iff]
  exact exists_congr fun identifier => and_congr_right fun _ => Signature.ofDer_signedData_eq_ok_iff

end Signer

theorem IndirectData.encode_eq (d : Digest) : ∃ file algorithm : Bytes,
    encode d = Der.encode Der.tagSequence (Der.encodeAll [(Der.tagSequence, file),
      (Der.tagSequence, Der.encodeAll
        [(Der.tagSequence, algorithm), (Der.tagOctetString, d.bytes)])]) :=
  ⟨_, _, rfl⟩

theorem IndirectData.digestOctets_encode (h : (encode d).length < 2 ^ 32) :
    digestOctets (encode d) = .ok (some d.bytes) := by
  obtain ⟨file, algorithm, heq⟩ := encode_eq d
  rw [heq] at h ⊢
  have houter := (Der.length_lt_length_encode _ _).trans h
  have hinfo := (Der.length_lt_length_encodeAll Der.tagSequence
    (List.mem_cons_of_mem _ (List.mem_cons_self ..))).trans houter
  have hread := Der.read_encode Der.tagSequence (by decide) houter
  have hone := Der.item?_encodeAll (by simp; decide) houter 1 rfl
  have htwo := Der.item?_encodeAll (by simp; decide) hinfo 1 rfl
  refine Except.bind_eq_ok_iff.2 ⟨_, hread, ?_⟩
  refine Except.bind_eq_ok_iff.2 ⟨_, hone, ?_⟩
  refine Except.bind_eq_ok_iff.2 ⟨_, htwo, ?_⟩
  rw [Option.filter_some, if_pos (decide_eq_true rfl)]
  rfl

theorem Signature.fields_encode {kind : Bytes} {items : List (UInt8 × Bytes)}
    (htags : ∀ q ∈ items, q.1 &&& 0x1f ≠ 0x1f)
    (hsize : (Der.encodeAll [(Der.tagOid, kind), (Der.tagContext0,
      Der.encode Der.tagSequence (Der.encodeAll items))]).length < 2 ^ 32) :
    fields ⟨Der.encode Der.tagSequence (Der.encodeAll [(Der.tagOid, kind), (Der.tagContext0,
      Der.encode Der.tagSequence (Der.encodeAll items))])⟩
      = .ok (items.map fun q => ⟨q.1, Der.encode q.1 q.2, q.2⟩) := by
  have hwrapper : (Der.encode Der.tagSequence (Der.encodeAll items)).length < 2 ^ 32 :=
    (Der.length_lt_length_encodeAll Der.tagContext0 (by simp)).trans hsize
  have hitems := (Der.length_lt_length_encode _ _).trans hwrapper
  have houter := Der.read_encode Der.tagSequence (by decide) hsize
  have hone := Der.item?_encodeAll (by simp; decide) hsize 1 rfl
  have hinner := Der.read_encode Der.tagSequence (by decide) hitems
  refine Except.bind_eq_ok_iff.2 ⟨_, houter, ?_⟩
  refine Except.bind_eq_ok_iff.2 ⟨_, hone, ?_⟩
  rw [Option.filter_some, if_pos (decide_eq_true rfl)]
  exact Except.bind_eq_ok_iff.2 ⟨_, hinner, Der.allElements_encodeAll htags hitems⟩

/-- The elements of the signed data, in order. -/
def Signer.fieldItems (who : Signer) (content info : Bytes) : List (UInt8 × Bytes) :=
  [(Der.tagInteger, [1]), (Der.tagSet, who.algorithm.identifier),
    (Der.tagSequence, Der.encodeAll [(Der.tagOid, IndirectData.oid), (Der.tagContext0, content)]),
    (Der.tagContext0, who.identity.certificate.der), (Der.tagSet, info)]

theorem Signer.signedData_eq (who : Signer) (identifier content : Bytes)
    (attributes : SignedAttributes) (value : Bytes) :
    who.signedData identifier content attributes value = Der.encode Der.tagSequence
      (Der.encodeAll (who.fieldItems content (who.signerInfo identifier attributes value))) := by
  simp only [signedData, fieldItems, Der.encodeParts, Der.encodeAll, Der.encodeOid, version,
    List.flatMap_cons, List.flatMap_nil, List.flatten_cons, List.flatten_nil]

theorem Signer.fields_of_assemble {who : Signer} {attributes : SignedAttributes}
    (h : who.assemble c attributes value = .ok s) : ∃ identifier,
      who.signatureIdentifier = .ok identifier ∧
      let items := who.fieldItems c (who.signerInfo identifier attributes value)
      (Der.encodeAll items).length < 2 ^ 32 ∧
        s.fields = .ok (items.map fun q => ⟨q.1, Der.encode q.1 q.2, q.2⟩) := by
  obtain ⟨identifier, hidentifier, hsize, rfl⟩ := assemble_eq_ok_iff.1 h
  rw [signedData_eq] at hsize ⊢
  have hwrapper := (Der.length_lt_length_encodeAll Der.tagContext0
    (List.mem_cons_of_mem _ (List.mem_cons_self ..))).trans hsize
  have hfields := Signature.fields_encode (by simp [fieldItems]; decide) hsize
  exact ⟨identifier, hidentifier, (Der.length_lt_length_encode _ _).trans hwrapper, hfields⟩

/-- The content of a signature is what it was assembled over. -/
theorem Signer.content_of_assemble {who : Signer} {attributes : SignedAttributes}
    (h : who.assemble c attributes value = .ok s) :
    c.length < 2 ^ 32 ∧ s.content = .ok (some c) := by
  obtain ⟨identifier, -, hsize, hfields⟩ := fields_of_assemble h
  have hinfo : (Der.encodeAll [(Der.tagOid, IndirectData.oid), (Der.tagContext0, c)]).length
      < 2 ^ 32 :=
    (Der.length_lt_length_encodeAll Der.tagSequence (by simp [fieldItems])).trans hsize
  have hkind := Der.item?_encodeAll (by simp; decide) hinfo 0 rfl
  have hcontext := Der.item?_encodeAll (by simp; decide) hinfo 1 rfl
  refine ⟨(Der.length_lt_length_encodeAll Der.tagContext0 (by simp)).trans hinfo, ?_⟩
  refine Except.bind_eq_ok_iff.2 ⟨_, hfields, ?_⟩
  refine Except.bind_eq_ok_iff.2 ⟨_, hkind, ?_⟩
  refine Except.bind_eq_ok_iff.2 ⟨_, hcontext, ?_⟩
  rw [Option.filter_some, if_pos (decide_eq_true rfl)]
  rfl

theorem Signer.checkAlgorithm_eq_ok_iff {who : Signer} :
    who.checkAlgorithm d = .ok () ↔ d.algorithm = who.algorithm := by
  unfold checkAlgorithm
  split
  · next h => exact iff_of_true rfl h
  · next h => exact iff_of_false nofun h

theorem Signer.generate_eq_ok_iff {who : Signer} {draws : List Nat} :
    who.generate d draws = .ok s ↔ d.algorithm = who.algorithm ∧ ∃ key attributes value,
      who.identity.signingKey = .ok key ∧
      SignedAttributes.ofContent (IndirectData.encode d) who.algorithm who.now = .ok attributes ∧
      key.sign who.algorithm attributes.setDer draws = .ok value ∧
      who.assemble (IndirectData.encode d) attributes value = .ok s := by
  simp only [generate, Except.bind_eq_ok_iff]
  constructor
  · rintro ⟨_, halgorithm, key, hkey, attributes, hattributes, value, hvalue, h⟩
    exact ⟨checkAlgorithm_eq_ok_iff.1 halgorithm, key, attributes, value, hkey, hattributes, hvalue,
      h⟩
  · rintro ⟨halgorithm, key, attributes, value, hkey, hattributes, hvalue, h⟩
    exact ⟨(), checkAlgorithm_eq_ok_iff.2 halgorithm, key, hkey, attributes, hattributes, value,
      hvalue, h⟩

theorem Signer.wrap_eq_ok_iff {who : Signer} {raw : RawSignature} :
    who.wrap d raw = .ok s ↔ d.algorithm = who.algorithm ∧
      (∃ expected, SignedAttribute.messageDigest (IndirectData.encode d) who.algorithm
        = .ok expected ∧ raw.attributes.contains expected = true) ∧
      who.assemble (IndirectData.encode d) raw.attributes raw.value = .ok s := by
  simp only [wrap, Except.bind_eq_ok_iff]
  constructor
  · rintro ⟨_, halgorithm, expected, hexpected, h⟩
    cases hcontains : raw.attributes.contains expected with
    | false =>
      rw [hcontains] at h
      cases h
    | true =>
      rw [hcontains] at h
      exact ⟨checkAlgorithm_eq_ok_iff.1 halgorithm, ⟨expected, hexpected, hcontains⟩, h⟩
  · rintro ⟨halgorithm, ⟨expected, hexpected, hcontains⟩, h⟩
    refine ⟨(), checkAlgorithm_eq_ok_iff.2 halgorithm, expected, hexpected, ?_⟩
    rw [hcontains]
    exact h

/-- A signature that was made for a digest carries it. -/
theorem Signer.digestOctets_of_generate {who : Signer} {draws : List Nat}
    (h : who.generate d draws = .ok s) :
    s.digestOctets = .ok (some d.bytes) := by
  obtain ⟨-, key, attributes, value, -, -, -, h⟩ := generate_eq_ok_iff.1 h
  obtain ⟨hlength, hcontent⟩ := content_of_assemble h
  exact Except.bind_eq_ok_iff.2 ⟨_, hcontent, IndirectData.digestOctets_encode hlength⟩

theorem Signer.ofDer_der_append_of_assemble {who : Signer} {attributes : SignedAttributes}
    (h : who.assemble c attributes value = .ok s) (tail : Bytes) :
    Signature.ofDer (s.der ++ tail) = .ok s := by
  simp only [assemble] at h
  obtain ⟨_, -, h⟩ := Except.bind_eq_ok_iff.1 h
  exact Signature.ofDer_der_append h tail

theorem Signer.ofDer_der_append_of_generate {who : Signer} {draws : List Nat}
    (h : who.generate d draws = .ok s) (tail : Bytes) : Signature.ofDer (s.der ++ tail) = .ok s := by
  obtain ⟨-, key, attributes, value, -, -, -, h⟩ := generate_eq_ok_iff.1 h
  exact ofDer_der_append_of_assemble h tail

end Authenticode.Cms
