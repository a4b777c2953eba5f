import Authenticode.Proofs.Attributes
import Authenticode.Proofs.Signature

/-!
# The parts of a signature

A signature is assembled of elements that stand several levels deep, and a part of it is
found by the tags and the order of the elements on the way. Each level is written here as
the list of its elements, so what is found can be read off the lists: the digest algorithm,
the one certificate, and the name by which the signer is known, which is the name of that
certificate.
-/
namespace Authenticode

namespace Der

variable {tag : UInt8} {e : Element} {es : List Element}

theorem Element.read_raw_of_mem_children? (h : Element.children? tag e = some es) {inner : Element}
    (hinner : inner ∈ es) : read inner.raw = .ok inner := by
  unfold Element.children? at h
  split at h
  · have hitems := Except.mapM_eq_ok_iff.1 (Except.toOption_eq_some_iff.1 h)
    rw [List.map_id] at hitems
    have hmem : .ok inner ∈ elements e.contents := by
      rw [hitems]
      exact List.mem_map_of_mem hinner
    exact read_raw_of_mem_elements hmem
  · cases h

end Der

namespace X509.Certificate

variable {data : Bytes} {c : Certificate}

theorem mem_of_behindVersion? {fields rest : List Der.Element}
    (h : behindVersion? fields = some rest) {e : Der.Element} (he : e ∈ rest) : e ∈ fields := by
  cases fields with
  | nil => cases h
  | cons first others =>
    simp only [behindVersion?] at h
    split at h
    · obtain ⟨_, -, h⟩ := Option.bind_eq_some_iff.1 h
      obtain ⟨_, -, h⟩ := Option.bind_eq_some_iff.1 h
      cases h
      exact List.mem_cons_of_mem _ he
    · cases h
      exact he

theorem ofDer?_eq_some_iff :
    ofDer? data = some c ↔ ∃ e, Der.read data = .ok e ∧ ofElement? e = some c := by
  simp only [ofDer?, Option.bind_eq_bind, Option.bind_eq_some_iff, Except.toOption_eq_some_iff]

theorem isMinimalInteger_of_integer? {e : Der.Element} {n : Bytes} (h : e.integer? = some n) :
    Der.isMinimalInteger n = true := by
  unfold Der.Element.integer? at h
  exact (Option.filter_eq_some_iff.1 h).2

/-- A certificate keeps its own encoding, its issuer's and the octets of its serial number as they
were read. -/
theorem exists_read_of_ofElement? {e : Der.Element} (h : ofElement? e = some c) :
    c.der = e.raw ∧ (∃ i, Der.read c.issuer = .ok i ∧ i.raw = c.issuer) ∧
      Der.isMinimalInteger c.serial = true := by
  simp only [ofElement?, Option.bind_eq_bind, Option.bind_eq_some_iff] at h
  obtain ⟨es, -, h⟩ := h
  split at h
  · simp only [Option.bind_eq_some_iff] at h
    obtain ⟨_, -, _, -, fields, hfields, rest, hrest, h⟩ := h
    split at h
    · next serial inner issuer validity subject keyInfo tail =>
      simp only [Option.bind_eq_some_iff] at h
      obtain ⟨_, hserial, _, -, _, -, _, -, _, -, h⟩ := h
      cases h
      have hissuer := mem_of_behindVersion? hrest (e := issuer) (by simp)
      exact ⟨rfl, ⟨issuer, Der.Element.read_raw_of_mem_children? hfields hissuer, rfl⟩,
        isMinimalInteger_of_integer? hserial⟩
    · cases h
  · cases h

theorem exists_read_of_ofDer? (h : ofDer? data = some c) :
    ofDer? c.der = some c ∧ ∃ e i, Der.read c.der = .ok e ∧ e.raw = c.der ∧
      Der.read c.issuer = .ok i ∧ i.raw = c.issuer := by
  obtain ⟨e, hread, helement⟩ := ofDer?_eq_some_iff.1 h
  obtain ⟨hder, ⟨i, hissuer, hraw⟩, -⟩ := exists_read_of_ofElement? helement
  have hagain : Der.read c.der = .ok e := by
    rw [hder]
    exact Der.read_raw hread
  exact ⟨ofDer?_eq_some_iff.2 ⟨e, hagain, helement⟩, e, i, hagain, hder.symm, hissuer, hraw⟩

end X509.Certificate

namespace Cms

variable {who : Signer} {s : Signature} {data c value identifier : Bytes}
  {attributes : SignedAttributes} {list : List SignedAttribute}

namespace Signer

theorem exists_signatureIdentifier (h : who.signatureIdentifier = .ok identifier) :
    ∃ algorithm, identifier = Der.encode Der.tagSequence algorithm := by
  obtain ⟨key, -, h⟩ := Except.bind_eq_ok_iff.1 h
  cases key with
  | rsa modulus exponent =>
    cases h
    exact ⟨_, rfl⟩
  | ec curve form x y =>
    cases h
    exact ⟨_, rfl⟩
  | ed25519 octets => cases h

def nameContents (c : X509.Certificate) : Bytes :=
  c.issuer ++ Der.encode Der.tagInteger (serialContents c)

theorem signerName_eq (c : X509.Certificate) :
    signerName c = Der.encode Der.tagSequence (nameContents c) := by
  simp only [signerName, nameContents, Der.encodeParts, List.flatten_cons, List.flatten_nil,
    List.append_nil]

theorem stripZeros_serialContents (c : X509.Certificate) :
    (serialContents c).stripZeros = c.serialMagnitude.stripZeros := by
  unfold serialContents
  cases hserial : c.serialMagnitude with
  | nil => rfl
  | cons d ds =>
    dsimp only
    split
    · rfl
    · rfl

def infoItems (who : Signer) (algorithm set value : Bytes) : List (UInt8 × Bytes) :=
  [(Der.tagInteger, [1]), (Der.tagSequence, nameContents who.identity.certificate),
    (Der.tagSequence, Der.encodeAll [(Der.tagOid, who.algorithm.oid), (0x05, [])]),
    (Der.tagContext0, set), (Der.tagSequence, algorithm), (Der.tagOctetString, value)]

theorem digestAlgorithm_of_assemble (h : who.assemble c attributes value = .ok s) :
    s.digestAlgorithm = .ok (some who.algorithm) := by
  obtain ⟨identifier, -, -, hfields⟩ := fields_of_assemble h
  have hsize : (Der.encodeAll [(Der.tagOid, who.algorithm.oid), (0x05, [])]).length < 2 ^ 32 := by
    cases who.algorithm <;> decide
  have halgorithm := Der.item?_encode Der.tagSequence (by decide) hsize
  have hoid := Der.item?_encodeAll (by simp; decide) hsize 0 rfl
  refine Except.bind_eq_ok_iff.2 ⟨_, hfields, ?_⟩
  refine Except.bind_eq_ok_iff.2 ⟨_, halgorithm, ?_⟩
  refine Except.bind_eq_ok_iff.2 ⟨_, hoid, ?_⟩
  exact congrArg Except.ok (HashAlgorithm.ofOid?_oid _)

theorem certificates_of_assemble (h : who.assemble c attributes value = .ok s)
    (hcertificate : X509.Certificate.ofDer? data = some who.identity.certificate) :
    s.certificates = .ok [who.identity.certificate] := by
  obtain ⟨identifier, -, -, hfields⟩ := fields_of_assemble h
  obtain ⟨hagain, e, _, hread, hraw, -⟩ := X509.Certificate.exists_read_of_ofDer? hcertificate
  have hitem : Signature.certificateOfItem (.ok e) = .ok who.identity.certificate := by
    refine Except.bind_eq_ok_iff.2 ⟨e, rfl, ?_⟩
    rw [hraw, hagain]
    rfl
  refine Except.bind_eq_ok_iff.2 ⟨_, hfields, ?_⟩
  change (Der.elements who.identity.certificate.der).mapM Signature.certificateOfItem = _
  rw [Der.elements_of_read hread hraw, List.mapM_cons, hitem, List.mapM_nil]
  rfl

theorem signerInfo_eq (who : Signer) (algorithm value : Bytes) (list : List SignedAttribute) :
    who.signerInfo (Der.encode Der.tagSequence algorithm) (.ofList list) value
      = Der.encode Der.tagSequence (Der.encodeAll
        (who.infoItems algorithm (Der.encodeAll (SignedAttributes.items list)) value)) := by
  simp only [signerInfo, infoItems, Der.encodeParts, Der.encodeAll, Der.encodeOid, version,
    signerName_eq, SignedAttributes.implicitDer_ofList, HashAlgorithm.identifier, Der.null,
    List.flatMap_cons, List.flatMap_nil, List.flatten_cons, List.flatten_nil]
  rfl

theorem exists_info_of_assemble (h : who.assemble c (.ofList list) value = .ok s) :
    ∃ algorithm,
      let items := who.infoItems algorithm (Der.encodeAll (SignedAttributes.items list)) value
      let fields := who.fieldItems c (Der.encode Der.tagSequence (Der.encodeAll items))
      (Der.encodeAll items).length < 2 ^ 32 ∧
        s.fields = .ok (fields.map fun q => ⟨q.1, Der.encode q.1 q.2, q.2⟩) := by
  obtain ⟨identifier, hidentifier, hsize, hfields⟩ := fields_of_assemble h
  obtain ⟨algorithm, rfl⟩ := exists_signatureIdentifier hidentifier
  rw [signerInfo_eq] at hsize hfields
  refine ⟨algorithm, ?_, hfields⟩
  have hset := (Der.length_lt_length_encodeAll Der.tagSet
    (List.mem_of_getElem? (i := 4) rfl)).trans hsize
  exact (Der.length_lt_length_encode _ _).trans hset

/-- The name of a signer is the issuer's name and the serial number. -/
theorem elements_nameContents {cert : X509.Certificate}
    (hcertificate : X509.Certificate.ofDer? data = some cert)
    (hsize : (nameContents cert).length < 2 ^ 32) :
    ∃ i : Der.Element, i.raw = cert.issuer ∧ Der.elements (nameContents cert)
      = [.ok i, .ok ⟨Der.tagInteger, Der.encode Der.tagInteger (serialContents cert),
        serialContents cert⟩] := by
  obtain ⟨-, _, i, -, -, hread, hraw⟩ := X509.Certificate.exists_read_of_ofDer? hcertificate
  have hserial : (serialContents cert).length < 2 ^ 32 := by
    have hlt := Der.length_lt_length_encode Der.tagInteger (serialContents cert)
    rw [nameContents, List.length_append] at hsize
    omega
  have hnumber := Der.elements_of_read (Der.read_encode Der.tagInteger (by decide) hserial) rfl
  refine ⟨i, hraw, ?_⟩
  rw [nameContents, Der.elements_append_of_read hread hraw, hnumber]

theorem signerName?_of_assemble (h : who.assemble c (.ofList list) value = .ok s)
    (hcertificate : X509.Certificate.ofDer? data = some who.identity.certificate) :
    s.signerName? = .ok (some (who.identity.certificate.issuer,
      who.identity.certificate.serialMagnitude.stripZeros)) := by
  obtain ⟨algorithm, hsize, hfields⟩ := exists_info_of_assemble h
  have hname : (nameContents who.identity.certificate).length < 2 ^ 32 :=
    (Der.length_lt_length_encodeAll Der.tagSequence (by simp [infoItems])).trans hsize
  obtain ⟨i, hraw, helements⟩ := elements_nameContents hcertificate hname
  have hinfo := Der.item?_encode Der.tagSequence (by decide) hsize
  have hitem := Der.item?_encodeAll (by simp [infoItems]; decide) hsize 1 rfl
  refine Except.bind_eq_ok_iff.2 ⟨_, hfields, ?_⟩
  refine Except.bind_eq_ok_iff.2 ⟨_, hinfo, ?_⟩
  refine Except.bind_eq_ok_iff.2 ⟨_, hitem, ?_⟩
  rw [Option.filter_some, if_pos (decide_eq_true rfl)]
  dsimp only
  rw [Der.item?, Der.item?, helements]
  refine Except.bind_eq_ok_iff.2 ⟨some i, rfl, ?_⟩
  refine Except.bind_eq_ok_iff.2 ⟨_, rfl, ?_⟩
  rw [Option.filter_some, if_pos (decide_eq_true rfl)]
  dsimp only
  rw [hraw, stripZeros_serialContents]
  rfl

theorem signerCertificate_of_assemble (h : who.assemble c (.ofList list) value = .ok s)
    (hcertificate : X509.Certificate.ofDer? data = some who.identity.certificate) :
    s.signerCertificate = .ok (some who.identity.certificate) := by
  refine Except.bind_eq_ok_iff.2 ⟨_, certificates_of_assemble h hcertificate, ?_⟩
  refine Except.bind_eq_ok_iff.2 ⟨_, signerName?_of_assemble h hcertificate, ?_⟩
  rw [Option.bind_some]
  dsimp only
  rw [List.find?_cons_of_pos (by simp)]
  rfl

end Signer

end Cms

end Authenticode
