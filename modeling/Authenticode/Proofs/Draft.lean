import Authenticode.Proofs.Armor
import Authenticode.Proofs.Attributes
import Authenticode.Proofs.Key.Signing
import Authenticode.Proofs.Signature

/-!
# How long a signature will be

Room for a signature is made before the signature exists, from a draft of it. The draft
is at least as long as the signature. The digest, the hash of the content and the time
have their lengths already, and so has the value of an RSA key; the value of a curve key
is two numbers below the order of the curve, whose longest forms the draft provides for.
-/
namespace Authenticode

/-- A number of `w` octets whose top bit is not set needs no zero in front of them. -/
theorem Der.length_encodeNat_le {n w : Nat} (hn : 2 * n < 256 ^ w) (hw : 0 < w)
    (hshort : w < 0x80) :
    (encodeNat n).length ≤ w + 2 := by
  have hcontents : ∃ c : Bytes, encodeNat n = encode tagInteger c ∧ c.length ≤ w := by
    unfold encodeNat
    have hlength : (Bytes.magnitude n).length ≤ w := Bytes.length_magnitude_le_iff.2 (by omega)
    have hvalue := Bytes.beNat_magnitude n
    cases hdigits : Bytes.magnitude n with
    | nil => exact ⟨[0], rfl, hw⟩
    | cons d ds =>
      rw [hdigits] at hlength hvalue
      by_cases htop : d < 0x80
      · exact ⟨d :: ds, by dsimp only; rw [if_pos htop], hlength⟩
      · refine ⟨0 :: d :: ds, by dsimp only; rw [if_neg htop], ?_⟩
        rw [Bytes.beNat_cons] at hvalue
        rw [UInt8.lt_iff_toNat_lt, Nat.not_lt] at htop
        change 128 ≤ _ at htop
        have hhalf : 128 * 256 ^ ds.length ≤ n :=
          (Nat.mul_le_mul_right _ htop).trans (Nat.le.intro hvalue)
        have hpow : 256 ^ (ds.length + 1) < 256 ^ w := by
          rw [Nat.pow_succ]
          omega
        exact (Nat.pow_lt_pow_iff_right (by decide)).1 hpow
  obtain ⟨c, heq, hc⟩ := hcontents
  rw [heq, length_encode, encodeLength, if_pos (by omega), List.length_singleton]
  omega

namespace Key

/-- Octets that the numbers below the order of a curve take at most, with a top bit not set. -/
def Curve.numberWidth : Curve → Nat
  | .p256 => 33
  | .p384 => 49
  | .p521 => 66

theorem Curve.order_lt (c : Curve) :
    0 < c.parameters.order ∧ 2 * c.parameters.order < 256 ^ c.numberWidth ∧
      0 < c.numberWidth ∧ c.numberWidth < 0x80 := by
  cases c <;> decide +kernel

namespace PrivateKey

variable {a : HashAlgorithm} {message value digest : Bytes} {secret : Nat} {draws : List Nat}

theorem exists_of_signCurve? {curve : Curve}
    (h : signCurve? curve secret draws digest = some value) :
    ∃ r s, r < curve.parameters.order ∧ s < curve.parameters.order ∧
      value = Der.encodeParts Der.tagSequence [Der.encodeNat r, Der.encodeNat s] := by
  obtain ⟨hpos, -⟩ := curve.order_lt
  obtain ⟨⟨r, s⟩, hfound, hvalue⟩ := Option.bind_eq_some_iff.1 h
  obtain ⟨draw, -, hdraw⟩ := List.exists_of_findSome?_eq_some hfound
  simp only [signWith?, Option.bind_eq_bind, Option.bind_eq_some_iff] at hdraw
  obtain ⟨⟨x, y⟩, -, ⟨⟩, -, hdraw⟩ := hdraw
  cases hdraw
  exact ⟨_, _, Nat.mod_lt _ hpos, Nat.mod_lt _ hpos, (Option.some.inj hvalue).symm⟩

theorem length_of_signCurve? {curve : Curve} {form : Curve.PointForm} {x y : Nat}
    (h : signCurve? curve secret draws digest = some value) :
    value.length ≤ (ec curve form secret x y).signatureSize := by
  obtain ⟨r, s, hr, hs, rfl⟩ := exists_of_signCurve? h
  obtain ⟨-, hwidth, hpos, hshort⟩ := curve.order_lt
  have hrlength := Der.length_encodeNat_le (n := r) (by omega) hpos hshort
  have hslength := Der.length_encodeNat_le (n := s) (by omega) hpos hshort
  have hvalue : (Der.encodeParts Der.tagSequence [Der.encodeNat r, Der.encodeNat s]).length
      ≤ (Der.encode Der.tagSequence (Bytes.zeros (2 * (curve.numberWidth + 2)))).length := by
    refine Der.length_encode_mono ?_
    simp only [List.length_flatten, List.map_cons, List.map_nil, List.sum_cons, List.sum_nil,
      Bytes.length_zeros]
    omega
  have hsize : (Der.encode Der.tagSequence (Bytes.zeros (2 * (curve.numberWidth + 2)))).length
      = (ec curve form secret x y).signatureSize := by
    cases curve with
    | p256 =>
      change _ = 72
      decide +kernel
    | p384 =>
      change _ = 104
      decide +kernel
    | p521 =>
      change _ = 139
      decide +kernel
  exact hvalue.trans hsize.le

theorem length_of_sign {k : RsaKey} (h : (rsa k).sign a message draws = .ok value) :
    value.length = (rsa k).signatureSize ∧ value ≠ [] := by
  obtain ⟨hroom, power, -, rfl⟩ := sign_rsa_eq_ok_iff.1 h
  have hlength := Bytes.length_ofBe (Bytes.magnitude k.modulus).length power
  refine ⟨hlength, ?_⟩
  intro hnil
  rw [hnil, List.length_nil] at hlength
  unfold rsaOverhead at hroom
  omega

theorem length_le_of_sign {key : PrivateKey} (h : key.sign a message draws = .ok value) :
    value.length ≤ key.signatureSize := by
  cases key with
  | rsa k => exact (length_of_sign h).1.le
  | ec curve form secret x y =>
    simp only [sign] at h
    split at h
    · next hfound =>
      cases h
      exact length_of_signCurve? hfound
    · cases h
  | ed25519 seed => cases h

end PrivateKey

end Key

namespace Cms

variable {who : Signer} {s draft : Signature} {d e : Digest} {c c' value value' : Bytes}
  {attributes attributes' : SignedAttributes} {raw : RawSignature} {k : Key.RsaKey}
  {draws : List Nat}

theorem SigningIdentity.signingKey_eq_ok_iff {i : SigningIdentity} {key : Key.PrivateKey} :
    i.signingKey = .ok key ↔ i.privateKey = some key := by
  unfold signingKey
  cases i.privateKey with
  | none => exact ⟨nofun, nofun⟩
  | some k => rw [Except.ok.injEq, Option.some.injEq]

theorem IndirectData.length_encode (h : d.algorithm = e.algorithm) :
    (encode d).length = (encode e).length := by
  have hbytes : d.bytes.length = e.bytes.length := by rw [d.length_eq, e.length_eq, h]
  simp only [encode, Digest.info, Der.encodeParts, Der.length_encode, List.length_flatten,
    List.map_cons, hbytes, h]

namespace Signer

/-- Parts that are no longer make signed data that is no longer: no element around them is longer
then. -/
theorem length_signedData_mono (who : Signer) (identifier : Bytes) (hcontent : c.length ≤ c'.length)
    (hattributes : attributes.body.length ≤ attributes'.body.length)
    (hvalue : value.length ≤ value'.length) :
    (who.signedData identifier c attributes value).length
      ≤ (who.signedData identifier c' attributes' value').length := by
  have hinfo : (who.signerInfo identifier attributes value).length
      ≤ (who.signerInfo identifier attributes' value').length := by
    refine Der.length_encodeParts_mono (.cons le_rfl (.cons le_rfl (.cons le_rfl
      (.cons ?_ (.cons le_rfl (.cons (Der.length_encode_mono hvalue) .nil))))))
    exact Nat.succ_le_succ hattributes
  refine Der.length_encodeParts_mono (.cons le_rfl (.cons le_rfl (.cons ?_ (.cons le_rfl
    (.cons (Der.length_encode_mono hinfo) .nil)))))
  exact Der.length_encodeParts_mono (.cons le_rfl (.cons (Der.length_encode_mono hcontent) .nil))

theorem exists_assemble (h : who.assemble c attributes value = .ok s)
    (hcontent : c'.length = c.length)
    (hattributes : attributes'.body.length = attributes.body.length)
    (hvalue : value'.length = value.length) :
    ∃ s', who.assemble c' attributes' value' = .ok s' ∧ s'.length = s.length := by
  obtain ⟨identifier, hidentifier, hsize, rfl⟩ := assemble_eq_ok_iff.1 h
  have hdata : (who.signedData identifier c' attributes' value').length
      = (who.signedData identifier c attributes value).length :=
    le_antisymm (length_signedData_mono who identifier hcontent.le hattributes.le hvalue.le)
      (length_signedData_mono who identifier hcontent.ge hattributes.ge hvalue.ge)
  refine ⟨_, assemble_eq_ok_iff.2 ⟨identifier, hidentifier, ?_, rfl⟩, ?_⟩
  · simp only [Der.encodeAll, List.flatMap_cons, List.length_append, Der.length_encode,
      hdata] at hsize ⊢
    exact hsize
  · simp only [Signature.length, Der.encodeParts, Der.length_encode, List.length_flatten,
      List.map_cons, hdata]

theorem length_le_of_assemble {s' : Signature} (h : who.assemble c attributes value = .ok s)
    (h' : who.assemble c' attributes' value' = .ok s') (hcontent : c.length ≤ c'.length)
    (hattributes : attributes.body.length ≤ attributes'.body.length)
    (hvalue : value.length ≤ value'.length) : s.length ≤ s'.length := by
  obtain ⟨identifier, hidentifier, -, rfl⟩ := assemble_eq_ok_iff.1 h
  obtain ⟨identifier', hidentifier', -, rfl⟩ := assemble_eq_ok_iff.1 h'
  cases hidentifier.symm.trans hidentifier'
  have hdata := length_signedData_mono who identifier hcontent hattributes hvalue
  exact Der.length_encodeParts_mono (.cons le_rfl (.cons (Der.length_encode_mono hdata) .nil))

theorem length_setDer_of_assemble (h : who.assemble c attributes value = .ok s) :
    attributes.setDer.length < 2 ^ 32 := by
  simp only [assemble] at h
  obtain ⟨identifier, -, h⟩ := Except.bind_eq_ok_iff.1 h
  obtain ⟨hsize, -⟩ := Signature.ofDer_signedData_eq_ok_iff.1 h
  simp only [Der.encodeAll, List.flatMap_cons, List.length_append, Der.length_encode,
    Der.encodeParts, List.length_flatten, List.map_cons, List.sum_cons,
    SignedAttributes.implicitDer, List.length_cons] at hsize
  rw [SignedAttributes.setDer, List.length_cons]
  omega

theorem length_draft (hkey : who.identity.privateKey = some (.rsa k))
    (hdraft : who.draft none = .ok draft) (h : who.generate d draws = .ok s) :
    draft.length = s.length := by
  obtain ⟨halgorithm, key, attributes, value, hsigning, hattributes, hvalue, hassemble⟩ :=
    generate_eq_ok_iff.1 h
  simp only [Signer.draft] at hdraft
  obtain ⟨attributes', hattributes', hdraft⟩ := Except.bind_eq_ok_iff.1 hdraft
  obtain ⟨key', hsigning', hdraft⟩ := Except.bind_eq_ok_iff.1 hdraft
  cases hsigning.symm.trans hsigning'
  cases hkey.symm.trans (SigningIdentity.signingKey_eq_ok_iff.1 hsigning)
  obtain ⟨s', hassemble', hlength⟩ := exists_assemble hassemble
    (IndirectData.length_encode (d := Digest.zero who.algorithm) halgorithm.symm)
    (SignedAttributes.length_body_of_ofContent hattributes' hattributes)
    ((Bytes.length_zeros _).trans (Key.PrivateKey.length_of_sign hvalue).1.symm)
  cases hdraft.symm.trans hassemble'
  exact hlength

/-- A draft is no shorter than a signature with any value that the key can make, whatever the digest
and whenever it is signed. -/
theorem length_le_draft {key : Key.PrivateKey} {now : Int} (hdraft : who.draft none = .ok draft)
    (hsigning : who.identity.signingKey = .ok key) (halgorithm : d.algorithm = who.algorithm)
    (hattributes : SignedAttributes.ofContent (IndirectData.encode d) who.algorithm now
      = .ok attributes)
    (hvalue : value.length ≤ key.signatureSize)
    (h : who.assemble (IndirectData.encode d) attributes value = .ok s) :
    s.length ≤ draft.length := by
  simp only [Signer.draft] at hdraft
  obtain ⟨attributes', hattributes', hdraft⟩ := Except.bind_eq_ok_iff.1 hdraft
  obtain ⟨key', hsigning', hdraft⟩ := Except.bind_eq_ok_iff.1 hdraft
  cases hsigning.symm.trans hsigning'
  have hcontent := IndirectData.length_encode (e := Digest.zero who.algorithm) halgorithm
  have hbody := SignedAttributes.length_body_of_ofContent hattributes hattributes'
  exact length_le_of_assemble h hdraft hcontent.le hbody.le
    (hvalue.trans (Bytes.length_zeros _).ge)

theorem length_le_draft_of_generate {now : Int} (hdraft : who.draft none = .ok draft)
    (h : generate { who with now } d draws = .ok s) : s.length ≤ draft.length := by
  obtain ⟨halgorithm, key, attributes, value, hsigning, hattributes, hvalue, hassemble⟩ :=
    generate_eq_ok_iff.1 h
  exact length_le_draft hdraft hsigning halgorithm hattributes
    (Key.PrivateKey.length_le_of_sign hvalue) hassemble

/-- A key that signs alike makes the same signature again, whatever random numbers are drawn. -/
theorem generate_eq_of_signsAlike {draws' : List Nat}
    (hkey : who.identity.privateKey = some (.rsa k)) (halike : k.SignsAlike)
    (h : who.generate d draws = .ok s) (hdraws : k.Usable draws') :
    who.generate d draws' = .ok s := by
  obtain ⟨halgorithm, key, attributes, value, hsigning, hattributes, hvalue, hassemble⟩ :=
    generate_eq_ok_iff.1 h
  cases hkey.symm.trans (SigningIdentity.signingKey_eq_ok_iff.1 hsigning)
  have hagain := Key.PrivateKey.sign_eq_of_signsAlike halike hvalue hdraws
  exact generate_eq_ok_iff.2 ⟨halgorithm, _, attributes, value, hsigning, hattributes, hagain,
    hassemble⟩

theorem exists_draft_of_wrap (h : who.wrap d raw = .ok s) :
    ∃ draft, who.draft (some raw) = .ok draft ∧ draft.length = s.length := by
  obtain ⟨halgorithm, -, hassemble⟩ := wrap_eq_ok_iff.1 h
  exact exists_assemble hassemble
    (IndirectData.length_encode (d := Digest.zero who.algorithm) halgorithm.symm) rfl rfl

/-- An identity's own signature is the one that is wrapped when an outside signer with the same
key signs the exported attributes. -/
theorem exists_wrap_of_generate (hkey : who.identity.privateKey = some (.rsa k))
    (h : who.generate d draws = .ok s) :
    ∃ attributes value, SignedAttributes.ofDigest d who.now = .ok attributes ∧
      (Key.PrivateKey.rsa k).sign who.algorithm attributes.setDer draws = .ok value ∧
      who.wrap d ⟨value, attributes⟩ = .ok s ∧
      (Armor.decode value = .ok none →
        RawSignature.ofFiles value attributes.setDer = .ok ⟨value, attributes⟩) := by
  obtain ⟨halgorithm, key, attributes, value, hsigning, hattributes, hvalue, hassemble⟩ :=
    generate_eq_ok_iff.1 h
  cases hkey.symm.trans (SigningIdentity.signingKey_eq_ok_iff.1 hsigning)
  obtain ⟨hread, hdigest⟩ := SignedAttributes.ofDer_setDer_of_ofContent hattributes
    (length_setDer_of_assemble hassemble)
  refine ⟨attributes, value, ?_, hvalue, wrap_eq_ok_iff.2 ⟨halgorithm, hdigest, hassemble⟩, ?_⟩
  · unfold SignedAttributes.ofDigest
    rwa [halgorithm]
  · intro hplain
    have hvalue' : Armor.strip value = .ok value :=
      Except.bind_eq_ok_iff.2 ⟨none, hplain, rfl⟩
    have hset : Armor.strip attributes.setDer = .ok attributes.setDer :=
      Armor.strip_of_head (by decide)
    simp only [RawSignature.ofFiles]
    refine Except.bind_eq_ok_iff.2 ⟨value, hvalue', ?_⟩
    rw [if_neg (Key.PrivateKey.length_of_sign hvalue).2]
    exact Except.bind_eq_ok_iff.2 ⟨_, hset, Except.bind_eq_ok_iff.2 ⟨_, hread, rfl⟩⟩

end Signer

end Cms

end Authenticode
