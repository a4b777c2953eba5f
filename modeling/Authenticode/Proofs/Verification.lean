import Authenticode.Proofs.Draft
import Authenticode.Proofs.SignerInfo

/-!
# Checking a signature

Whoever checks a signature starts from its octets alone. From them they take the digest
of the image, the contents that the signed attributes hold the hash of, the attributes in
the form in which they were signed, and the value. A signature that was made has all of
these where they are looked for: the value is what the key made of the attributes that are
found, and the hash among the attributes is that of the contents that are found.
-/
namespace Authenticode.Cms

/-- What is taken from a signature in order to check it. -/
structure SignedParts where
  /-- The digest of the image. -/
  digest : Bytes
  /-- The octets under the outer tag of the content. -/
  contents : Bytes
  /-- The attributes, under the tag that they have when they are signed. -/
  attributes : Bytes
  value : Bytes
  deriving DecidableEq, Repr

namespace Signature

def signerFields (s : Signature) : Except Error (Option (List Der.Element)) := do
  let some set := (← s.fields)[4]? | return none
  let some info ← Der.item? set.contents 0 | return none
  return some (← Der.allElements info.contents)

def parts (s : Signature) : Except Error (Option SignedParts) := do
  let some content ← s.content | return none
  let some digest ← IndirectData.digestOctets content | return none
  let outer ← Der.read content
  let some [_, _, _, attributes, _, value] ← s.signerFields | return none
  if attributes.tag ≠ Der.tagContext0 ∨ value.tag ≠ Der.tagOctetString then return none
  return some ⟨digest, outer.contents, Der.tagSet :: attributes.raw.drop 1, value.contents⟩

end Signature

namespace SignedAttributes

/-- What stands behind the identifier, in each attribute of a set that has this identifier. -/
def valuesOf (oid set : Bytes) : Except Error (List Bytes) := do
  let attributes ← Der.allElements (← Der.read set).contents
  let inner ← attributes.mapM fun a => Der.allElements a.contents
  return inner.filterMap fun
    | kind :: values =>
      if kind.tag = Der.tagOid ∧ kind.contents = oid then some (values.flatMap (·.raw)) else none
    | [] => none

variable {d : Digest} {algorithm : HashAlgorithm} {now : Int} {r : SignedAttributes}
  {list : List SignedAttribute}

/-- Every attribute of a set is found, with all that stands behind its identifier. -/
theorem valuesOf_setDer (oid : Bytes) (hsize : (Der.encodeAll (items list)).length < 2 ^ 32) :
    valuesOf oid (ofList list).setDer = .ok ((sorted list).filterMap fun a =>
      if a.oid = oid then some (Der.encode Der.tagSet a.value) else none) := by
  have hitems := Der.allElements_encodeAll lowTags_items hsize
  have hinner : ∀ a ∈ sorted list, Der.allElements a.contents = .ok
      [⟨Der.tagOid, Der.encode Der.tagOid a.oid, a.oid⟩,
        ⟨Der.tagSet, Der.encode Der.tagSet a.value, a.value⟩] := by
    intro a ha
    have hmem : (Der.tagSequence, a.contents) ∈ items list := List.mem_map.2 ⟨a, ha, rfl⟩
    have hlt := (Der.length_lt_length_encodeAll Der.tagSequence hmem).trans hsize
    rw [a.contents_eq] at hlt ⊢
    exact Der.allElements_encodeAll (by simp; decide) hlt
  refine Except.bind_eq_ok_iff.2 ⟨_, read_setDer hsize, ?_⟩
  refine Except.bind_eq_ok_iff.2 ⟨_, hitems, ?_⟩
  refine Except.bind_eq_ok_iff.2 ⟨(sorted list).map fun a =>
    [⟨Der.tagOid, Der.encode Der.tagOid a.oid, a.oid⟩,
      ⟨Der.tagSet, Der.encode Der.tagSet a.value, a.value⟩], ?_, ?_⟩
  · rw [Except.mapM_eq_ok_iff, items, List.map_map, List.map_map, List.map_map]
    exact List.map_congr_left hinner
  · rw [List.filterMap_map]
    refine congrArg Except.ok (List.filterMap_congr fun a _ => ?_)
    simp only [Function.comp_apply, List.flatMap_cons, List.flatMap_nil, List.append_nil, true_and]

/-- The set for a content has one attribute with a hash, and it is that of the contents. -/
theorem valuesOf_messageDigest (h : ofContent (IndirectData.encode d) algorithm now = .ok r)
    (hsize : r.setDer.length < 2 ^ 32) {outer : Der.Element}
    (hread : Der.read (IndirectData.encode d) = .ok outer) :
    valuesOf SignedAttribute.messageDigestOid r.setDer = .ok [Der.encode Der.tagSet
      (Der.encode Der.tagOctetString (algorithm.hash outer.contents))] := by
  obtain ⟨time, digest, htime, hdigest, rfl⟩ := ofContent_eq_ok_iff.1 h
  obtain ⟨text, -, htime⟩ := Except.bind_eq_ok_iff.1 htime
  obtain ⟨found, hfound, hdigest⟩ := Except.bind_eq_ok_iff.1 hdigest
  cases hread.symm.trans hfound
  cases htime
  cases hdigest
  have hitems := (length_items_lt_length_setDer _).trans hsize
  rw [valuesOf_setDer _ hitems]
  have hperm := (perm_sorted [.contentType, ⟨SignedAttribute.signingTimeOid, text⟩,
    ⟨SignedAttribute.messageDigestOid,
      Der.encode Der.tagOctetString (algorithm.hash outer.contents)⟩,
    .statementType, .opusInfo]).filterMap fun a =>
      if a.oid = SignedAttribute.messageDigestOid then some (Der.encode Der.tagSet a.value)
      else none
  exact congrArg Except.ok (List.perm_singleton.1 hperm)

end SignedAttributes

namespace Signer

variable {who : Signer} {s : Signature} {d : Digest} {draws : List Nat} {data c value : Bytes}
  {list : List SignedAttribute}

theorem signerFields_of_assemble (h : who.assemble c (.ofList list) value = .ok s) :
    ∃ algorithm, s.signerFields = .ok (some ((who.infoItems algorithm
      (Der.encodeAll (SignedAttributes.items list)) value).map
        fun q => ⟨q.1, Der.encode q.1 q.2, q.2⟩)) := by
  obtain ⟨algorithm, hsize, hfields⟩ := exists_info_of_assemble h
  have hinfo := Der.item?_encode Der.tagSequence (by decide) hsize
  have hall := Der.allElements_encodeAll (by simp [infoItems]; decide) hsize
  refine ⟨algorithm, ?_⟩
  refine Except.bind_eq_ok_iff.2 ⟨_, hfields, ?_⟩
  refine Except.bind_eq_ok_iff.2 ⟨_, hinfo, ?_⟩
  exact Except.bind_eq_ok_iff.2 ⟨_, hall, rfl⟩

theorem parts_of_assemble (h : who.assemble (IndirectData.encode d) (.ofList list) value = .ok s) :
    ∃ outer, Der.read (IndirectData.encode d) = .ok outer ∧
      s.parts = .ok (some
        ⟨d.bytes, outer.contents, (SignedAttributes.ofList list).setDer, value⟩) := by
  obtain ⟨hlength, hcontent⟩ := content_of_assemble h
  obtain ⟨algorithm, hsigner⟩ := signerFields_of_assemble h
  have hdigest := IndirectData.digestOctets_encode hlength
  have hread := Der.read_encode Der.tagSequence (by decide)
    ((Der.length_lt_length_encode _ _).trans hlength)
  refine ⟨_, hread, ?_⟩
  refine Except.bind_eq_ok_iff.2 ⟨_, hcontent, ?_⟩
  refine Except.bind_eq_ok_iff.2 ⟨_, hdigest, ?_⟩
  refine Except.bind_eq_ok_iff.2 ⟨_, hread, ?_⟩
  refine Except.bind_eq_ok_iff.2 ⟨_, hsigner, ?_⟩
  rw [SignedAttributes.setDer_ofList]
  rfl

/-- A signature that was made agrees with itself, as whoever checks it finds it. It is about the
digest that it was made for. The attributes in it, under the tag of a set, are the message that the
key signed, and the value in it is what the key made of that message. The one attribute with a hash
holds that of the contents that are found. The algorithm, the certificates and the signer's
certificate are read back as they are. -/
theorem exists_parts_of_generate
    (hcertificate : X509.Certificate.ofDer? data = some who.identity.certificate)
    (h : who.generate d draws = .ok s) :
    ∃ key attributes value parts,
      who.identity.signingKey = .ok key ∧
      SignedAttributes.ofContent (IndirectData.encode d) who.algorithm who.now = .ok attributes ∧
      key.sign who.algorithm attributes.setDer draws = .ok value ∧
      who.assemble (IndirectData.encode d) attributes value = .ok s ∧
      s.parts = .ok (some parts) ∧
      parts.digest = d.bytes ∧ parts.attributes = attributes.setDer ∧ parts.value = value ∧
      SignedAttributes.valuesOf SignedAttribute.messageDigestOid parts.attributes
        = .ok [Der.encode Der.tagSet
          (Der.encode Der.tagOctetString (who.algorithm.hash parts.contents))] ∧
      s.digestAlgorithm = .ok (some who.algorithm) ∧
      s.certificates = .ok [who.identity.certificate] ∧
      s.signerCertificate = .ok (some who.identity.certificate) := by
  obtain ⟨-, key, attributes, value, hkey, hattributes, hvalue, hassemble⟩ :=
    generate_eq_ok_iff.1 h
  obtain ⟨time, digest, -, -, heq⟩ := SignedAttributes.ofContent_eq_ok_iff.1 hattributes
  have hlist := hassemble
  rw [heq] at hlist
  obtain ⟨outer, hread, hparts⟩ := parts_of_assemble hlist
  rw [← heq] at hparts
  have hvalues := SignedAttributes.valuesOf_messageDigest hattributes
    (length_setDer_of_assemble hassemble) hread
  exact ⟨key, attributes, value, _, hkey, hattributes, hvalue, hassemble, hparts, rfl, rfl, rfl,
    hvalues, digestAlgorithm_of_assemble hassemble, certificates_of_assemble hassemble hcertificate,
    signerCertificate_of_assemble hlist hcertificate⟩

/-- The least identity signs the zero digest at the start of 1970. -/
theorem exists_parts_of_generate_least :
    let who : Signer := ⟨.sha256, .least, 0⟩
    ∃ s parts, who.generate (Digest.zero .sha256) = .ok s ∧ s.parts = .ok (some parts) ∧
      parts.digest = Bytes.zeros 32 ∧
      (Key.PrivateKey.rsa .least).sign .sha256 parts.attributes [1] = .ok parts.value ∧
      s.signerCertificate = .ok (some SigningIdentity.least.certificate) := by
  intro who
  have hcertificate : X509.Certificate.ofDer? who.identity.certificate.der
      = some who.identity.certificate := by decide +kernel
  have hmade : (who.generate (Digest.zero .sha256)).isOk = true := by decide +kernel
  cases hs : who.generate (Digest.zero .sha256) with
  | error f =>
    rw [hs] at hmade
    cases hmade
  | ok s =>
    obtain ⟨key, attributes, value, parts, hkey, -, hsign, -, hparts, hdigest, hmessage, hvalue,
      -, -, -, hsigner⟩ := exists_parts_of_generate hcertificate hs
    cases hkey
    rw [← hmessage, ← hvalue] at hsign
    exact ⟨s, parts, rfl, hparts, hdigest, hsign, hsigner⟩

end Signer

end Authenticode.Cms
