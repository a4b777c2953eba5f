import Authenticode.Proofs.Verification

/-!
# Values from outside

A value that was made elsewhere is wrapped with the attributes it came with. These keep the
octets in which they were written, which need not be those that this library writes: only
their tag is replaced. So they are read back by what a reader takes, not by what was
written, and then a checker finds the value and the attributes of the two files.
-/
namespace Authenticode

namespace Der

variable {data : Bytes} {tag : UInt8} {e : Element}

/-- The octets behind a tag are read alike behind any other. -/
theorem read_retag (h : read data = .ok e) (htag : tag &&& 0x1f ≠ 0x1f) :
    read (tag :: e.raw.drop 1) = .ok ⟨tag, tag :: e.raw.drop 1, e.contents⟩ := by
  obtain ⟨first, body, hraw⟩ := List.exists_cons_of_ne_nil (raw_ne_nil_of_read h)
  have hagain := read_raw h
  rw [hraw] at hagain
  obtain ⟨-, length, octets, hlength, hin, heq⟩ := read_cons_eq_ok_iff.1 hagain
  have hbody : body.take (octets + length) = body := by
    rw [heq] at hraw
    exact List.tail_eq_of_cons_eq hraw
  rw [hraw, List.drop_succ_cons, List.drop_zero, read_cons_eq_ok_iff]
  refine ⟨htag, length, octets, hlength, hin, ?_⟩
  rw [heq, hbody]

theorem allElements_flatten {parts : List Bytes} {es : List Element}
    (h : List.Forall₂ (fun part e => read part = .ok e ∧ e.raw = part) parts es) :
    allElements parts.flatten = .ok es := by
  have helements : elements parts.flatten = es.map .ok := by
    induction h with
    | nil => rw [List.flatten_nil, elements, List.map_nil]
    | cons hpart _ ih =>
      rw [List.flatten_cons, elements_append_of_read hpart.1 hpart.2, ih, List.map_cons]
  exact allElements_eq_ok_iff.2 helements

end Der

namespace Cms

variable {who : Signer} {s : Signature} {d : Digest} {data c value file attributesFile : Bytes}
  {attributes : SignedAttributes} {raw : RawSignature} {tag : UInt8}

theorem SignedAttributes.exists_read_of_ofDer (h : ofDer data = .ok attributes)
    (htag : tag &&& 0x1f ≠ 0x1f) : ∃ contents inner,
      Der.read (tag :: attributes.body) = .ok ⟨tag, tag :: attributes.body, contents⟩ ∧
      Der.allElements contents = .ok inner := by
  obtain ⟨e, inner, hread, -, hinner, -, rfl⟩ := ofDer_eq_ok_iff.1 h
  exact ⟨e.contents, inner, Der.read_retag hread htag, hinner⟩

theorem RawSignature.exists_ofDer_of_ofFiles (h : ofFiles file attributesFile = .ok raw) :
    Armor.strip file = .ok raw.value ∧ ∃ set, Armor.strip attributesFile = .ok set ∧
      SignedAttributes.ofDer set = .ok raw.attributes := by
  obtain ⟨octets, hoctets, h⟩ := Except.bind_eq_ok_iff.1 h
  dsimp only at h
  split_ifs at h
  · cases h
  · obtain ⟨set, hset, h⟩ := Except.bind_eq_ok_iff.1 h
    obtain ⟨attributes, hattributes, h⟩ := Except.bind_eq_ok_iff.1 h
    cases h
    exact ⟨hoctets, set, hset, hattributes⟩

namespace Signer

theorem signerFields_of_assemble_of_read {e : Der.Element}
    (hread : Der.read attributes.implicitDer = .ok e) (hraw : e.raw = attributes.implicitDer)
    (h : who.assemble c attributes value = .ok s) :
    ∃ version name algorithm identifier, s.signerFields = .ok (some
      [version, name, algorithm, e, identifier,
        ⟨Der.tagOctetString, Der.encode Der.tagOctetString value, value⟩]) := by
  obtain ⟨_, hidentifier, hsize, hfields⟩ := fields_of_assemble h
  obtain ⟨identifier, rfl⟩ := exists_signatureIdentifier hidentifier
  set parts := [version, signerName who.identity.certificate, who.algorithm.identifier,
    attributes.implicitDer, Der.encode Der.tagSequence identifier,
    Der.encode Der.tagOctetString value]
  have hinfo : (Der.encode Der.tagSequence parts.flatten).length < 2 ^ 32 :=
    (Der.length_lt_length_encodeAll Der.tagSet (List.mem_of_getElem? (i := 4) rfl)).trans hsize
  have hflatten := (Der.length_lt_length_encode _ _).trans hinfo
  have hpart : ∀ (i : Nat) tag contents, parts[i]? = some (Der.encode tag contents) →
      tag &&& 0x1f ≠ 0x1f → Der.read (Der.encode tag contents)
        = .ok ⟨tag, Der.encode tag contents, contents⟩ := by
    intro i tag contents hi htag
    refine Der.read_encode tag htag ?_
    exact ((Der.length_lt_length_encode tag contents).trans_le
      (List.sublist_flatten_of_mem (List.mem_of_getElem? hi)).length_le).trans hflatten
  have hname := signerName_eq who.identity.certificate
  have hall : Der.allElements parts.flatten = .ok _ := Der.allElements_flatten
    (.cons ⟨hpart 0 Der.tagInteger [1] rfl (by decide), rfl⟩
      (.cons ⟨(congrArg Der.read hname).trans
        (hpart 1 Der.tagSequence _ (congrArg some hname) (by decide)), hname.symm⟩
      (.cons ⟨hpart 2 Der.tagSequence _ rfl (by decide), rfl⟩
      (.cons ⟨hread, hraw⟩
      (.cons ⟨hpart 4 Der.tagSequence identifier rfl (by decide), rfl⟩
      (.cons ⟨hpart 5 Der.tagOctetString value rfl (by decide), rfl⟩ .nil))))))
  have hitem := Der.item?_encode Der.tagSequence (by decide) hflatten
  have hsigner : s.signerFields = .ok (some _) := Except.bind_eq_ok_iff.2 ⟨_, hfields,
    Except.bind_eq_ok_iff.2 ⟨_, hitem, Except.bind_eq_ok_iff.2 ⟨_, hall, rfl⟩⟩⟩
  exact ⟨_, _, _, _, hsigner⟩

/-- A checker finds in a wrapped signature the digest it was wrapped for and the contents that
say so, and the value and the attributes from outside, these in the form in which they were
signed. -/
theorem exists_parts_of_wrap (hraw : RawSignature.ofFiles file attributesFile = .ok raw)
    (h : who.wrap d raw = .ok s) : ∃ outer parts,
      Der.read (IndirectData.encode d) = .ok outer ∧ s.parts = .ok (some parts) ∧
      parts.digest = d.bytes ∧ parts.contents = outer.contents ∧
      parts.attributes = raw.attributes.setDer ∧ parts.value = raw.value := by
  obtain ⟨-, -, hassemble⟩ := wrap_eq_ok_iff.1 h
  obtain ⟨-, set, -, hattributes⟩ := RawSignature.exists_ofDer_of_ofFiles hraw
  have htag : Der.tagContext0 &&& 0x1f ≠ 0x1f := by decide
  obtain ⟨_, -, hread, -⟩ := SignedAttributes.exists_read_of_ofDer hattributes htag
  obtain ⟨hlength, hcontent⟩ := content_of_assemble hassemble
  obtain ⟨version, name, algorithm, identifier, hfields⟩ :=
    signerFields_of_assemble_of_read hread rfl hassemble
  have hdigest := IndirectData.digestOctets_encode hlength
  have hcontents : Der.read (IndirectData.encode d) = .ok _ := Der.read_encode Der.tagSequence
    (by decide) ((Der.length_lt_length_encode _ _).trans hlength)
  refine ⟨_, ⟨d.bytes, _, raw.attributes.setDer, raw.value⟩, hcontents, ?_, rfl, rfl, rfl, rfl⟩
  refine Except.bind_eq_ok_iff.2 ⟨_, hcontent, ?_⟩
  refine Except.bind_eq_ok_iff.2 ⟨_, hdigest, ?_⟩
  refine Except.bind_eq_ok_iff.2 ⟨_, hcontents, ?_⟩
  exact Except.bind_eq_ok_iff.2 ⟨_, hfields, rfl⟩

end Signer

end Cms

end Authenticode
