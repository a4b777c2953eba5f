import Authenticode.Proofs.Der.Integer
import Authenticode.Proofs.Key.Signing
import Authenticode.Proofs.SignerInfo

/-!
# The serial number in a signature

A signer is named by the issuer of its certificate and the serial number. The issuer's name is
copied as it stands in the certificate. The serial number is not: what is written is the INTEGER
of its absolute value. So the octets in the certificate and in the signature are the same for
every number that is not negative, however long it is, and differ for all negative ones.
-/
namespace Authenticode.Cms

/-- The elements by which the first signer names its certificate. -/
def Signature.signerIdentifier (s : Signature) : Except Error (Option (List Der.Element)) := do
  let some set := (← s.fields)[4]? | return none
  let some info ← Der.item? set.contents 0 | return none
  let some name := (← Der.item? info.contents 1).filter (·.tag = Der.tagSequence) | return none
  return some (← Der.allElements name.contents)

namespace Signer

variable {who : Signer} {s : Signature} {cert : X509.Certificate} {file data c value : Bytes}
  {attributes : SignedAttributes}

/-- The absolute value of a serial number, written for a number that is not negative. -/
theorem serialContents_eq (cert : X509.Certificate) :
    serialContents cert = Der.naturalContents (Der.integerValue cert.serial).natAbs := by
  have hmagnitude : cert.serialMagnitude
      = Bytes.magnitude (Der.integerValue cert.serial).natAbs := by
    unfold X509.Certificate.serialMagnitude X509.Certificate.magnitude
    cases cert.serial with
    | nil => exact Bytes.magnitude_zero.symm
    | cons d ds =>
      dsimp only
      by_cases hd : d < 0x80
      · rw [if_neg (UInt8.not_le.2 hd), Der.integerValue_of_low hd, Int.natAbs_natCast,
          Bytes.stripZeros_eq_magnitude]
      · rw [if_pos (UInt8.not_lt.1 hd), Der.integerValue_of_high hd, Int.natAbs_neg,
          Int.natAbs_natCast]
  cases hdigits : Bytes.magnitude (Der.integerValue cert.serial).natAbs with
  | nil => simp [serialContents, Der.naturalContents, hmagnitude, hdigits]
  | cons d ds => simp [serialContents, Der.naturalContents, hmagnitude, hdigits]

theorem exists_ofDer?_of_ofFile? (h : X509.Certificate.ofFile? file = some cert) :
    ∃ data, X509.Certificate.ofDer? data = some cert := by
  unfold X509.Certificate.ofFile? at h
  rcases (Option.orElse_eq_some _ _ _).1 h with harmored | ⟨-, hplain⟩
  · obtain ⟨data, -, hdata⟩ := Option.bind_eq_some_iff.1 harmored
    exact ⟨data, hdata⟩
  · exact ⟨file, hplain⟩

theorem isMinimalInteger_serial (h : X509.Certificate.ofDer? data = some cert) :
    Der.isMinimalInteger cert.serial = true := by
  obtain ⟨e, -, helement⟩ := X509.Certificate.ofDer?_eq_some_iff.1 h
  exact (X509.Certificate.exists_read_of_ofElement? helement).2.2

/-- The signatures of a signer: made with its own key, around a value from outside, and drafts of
either. -/
def Makes (who : Signer) (s : Signature) : Prop :=
  (∃ d draws, who.generate d draws = .ok s) ∨ (∃ d raw, who.wrap d raw = .ok s) ∨
    ∃ raw, who.draft raw = .ok s

theorem Makes.exists_assemble (h : who.Makes s) :
    ∃ c attributes value, who.assemble c attributes value = .ok s := by
  rcases h with ⟨d, draws, hgenerate⟩ | ⟨d, raw, hwrap⟩ | ⟨raw, hdraft⟩
  · obtain ⟨-, _, attributes, value, -, -, -, hassemble⟩ := generate_eq_ok_iff.1 hgenerate
    exact ⟨_, attributes, value, hassemble⟩
  · obtain ⟨-, -, hassemble⟩ := wrap_eq_ok_iff.1 hwrap
    exact ⟨_, raw.attributes, raw.value, hassemble⟩
  · cases raw with
    | some raw => exact ⟨_, raw.attributes, raw.value, hdraft⟩
    | none =>
      obtain ⟨attributes, -, hdraft⟩ := Except.bind_eq_ok_iff.1 hdraft
      obtain ⟨key, -, hassemble⟩ := Except.bind_eq_ok_iff.1 hdraft
      exact ⟨_, attributes, _, hassemble⟩

theorem exists_signerInfo_eq (who : Signer) (identifier : Bytes) (attributes : SignedAttributes)
    (value : Bytes) : ∃ tail, who.signerInfo identifier attributes value
      = Der.encode Der.tagSequence (version ++ (signerName who.identity.certificate ++ tail)) :=
  ⟨_, rfl⟩

theorem item?_version_append {name tail : Bytes} (hname : name.length < 2 ^ 32) :
    Der.item? (version ++ (Der.encode Der.tagSequence name ++ tail)) 1
      = .ok (some ⟨Der.tagSequence, Der.encode Der.tagSequence name, name⟩) := by
  have hversion := Der.read_encode (c := [1]) Der.tagInteger (by decide) (by decide)
  have hread := Der.read_encode Der.tagSequence (by decide) hname
  rw [Der.item?, version, Der.elements_append_of_read hversion rfl,
    Der.elements_append_of_read hread rfl]
  rfl

theorem signerIdentifier_of_assemble (h : who.assemble c attributes value = .ok s)
    (hcertificate : X509.Certificate.ofDer? data = some who.identity.certificate) :
    ∃ i : Der.Element, i.raw = who.identity.certificate.issuer ∧
      s.signerIdentifier = .ok (some [i, ⟨Der.tagInteger,
        Der.encode Der.tagInteger (serialContents who.identity.certificate),
        serialContents who.identity.certificate⟩]) := by
  obtain ⟨identifier, -, hsize, hfields⟩ := fields_of_assemble h
  obtain ⟨tail, hinfo⟩ := exists_signerInfo_eq who identifier attributes value
  have hset : (who.signerInfo identifier attributes value).length < 2 ^ 32 :=
    (Der.length_lt_length_encodeAll Der.tagSet (by simp [fieldItems])).trans hsize
  rw [hinfo, signerName_eq] at hset hfields
  have hcontents := (Der.length_lt_length_encode _ _).trans hset
  have hname : (nameContents who.identity.certificate).length < 2 ^ 32 := by
    have hlt := Der.length_lt_length_encode Der.tagSequence
      (nameContents who.identity.certificate)
    rw [List.length_append, List.length_append] at hcontents
    omega
  obtain ⟨i, hraw, helements⟩ := elements_nameContents hcertificate hname
  have hall : Der.allElements (nameContents who.identity.certificate) = .ok [i, _] :=
    Der.allElements_eq_ok_iff.2 helements
  refine ⟨i, hraw, ?_⟩
  refine Except.bind_eq_ok_iff.2 ⟨_, hfields, ?_⟩
  refine Except.bind_eq_ok_iff.2 ⟨_, Der.item?_encode Der.tagSequence (by decide) hcontents, ?_⟩
  refine Except.bind_eq_ok_iff.2 ⟨_, item?_version_append hname, ?_⟩
  rw [Option.filter_some, if_pos (decide_eq_true rfl)]
  exact Except.bind_eq_ok_iff.2 ⟨_, hall, rfl⟩

/-- A signer is named by the issuer's name as it stands in its certificate, and by the INTEGER of
the absolute value of the serial number. The octets of this INTEGER are those in the certificate
exactly when the serial number is not negative. -/
theorem signerIdentifier_of_makes
    (hcertificate : X509.Certificate.ofFile? file = some who.identity.certificate)
    (h : who.Makes s) :
    let cert := who.identity.certificate
    Der.isMinimalInteger cert.serial = true ∧
    ∃ issuer serial : Der.Element,
      s.signerIdentifier = .ok (some [issuer, serial]) ∧ issuer.raw = cert.issuer ∧
      serial.raw = Der.encodeNat (Der.integerValue cert.serial).natAbs ∧
      serial.tag = Der.tagInteger ∧
      Der.integerValue serial.contents = |Der.integerValue cert.serial| ∧
      (serial.contents = cert.serial ↔ 0 ≤ Der.integerValue cert.serial) := by
  intro cert
  obtain ⟨data, hdata⟩ := exists_ofDer?_of_ofFile? hcertificate
  obtain ⟨c, attributes, value, hassemble⟩ := h.exists_assemble
  obtain ⟨issuer, hissuer, hidentifier⟩ := signerIdentifier_of_assemble hassemble hdata
  have hminimal := isMinimalInteger_serial hdata
  have hserial := serialContents_eq cert
  refine ⟨hminimal, issuer, _, hidentifier, hissuer, ?_, rfl, ?_, ?_⟩
  · rw [Der.encodeNat_eq, ← hserial]
  · rw [hserial, Der.integerValue_naturalContents, Int.abs_eq_natAbs]
  · rw [hserial]
    exact Der.naturalContents_natAbs_iff hminimal

/-- A certificate with the serial number minus one, and what a signature says instead. -/
theorem signerIdentifier_of_makes_negative :
    let file := X509.Certificate.leastFile [0xff]
    ∃ (who : Signer) (s : Signature) (issuer serial : Der.Element),
      X509.Certificate.ofFile? file = some who.identity.certificate ∧ who.Makes s ∧
      who.identity.certificate.serial = [0xff] ∧
      s.signerIdentifier = .ok (some [issuer, serial]) ∧
      serial.raw = [0x02, 0x01, 0x01] ∧ serial.contents ≠ who.identity.certificate.serial := by
  intro file
  let cert := (X509.Certificate.ofFile? file).get (by decide +kernel)
  let who : Signer := ⟨.sha256, ⟨"a", cert, some (.rsa .least)⟩, 0⟩
  have hcertificate : X509.Certificate.ofFile? file = some who.identity.certificate :=
    (Option.some_get _).symm
  have hserial : who.identity.certificate.serial = [0xff] := by decide +kernel
  have hmade : (who.generate (Digest.zero .sha256)).isOk = true := by decide +kernel
  cases hs : who.generate (Digest.zero .sha256) with
  | error f =>
    rw [hs] at hmade
    cases hmade
  | ok s =>
    have hmakes : who.Makes s := .inl ⟨_, _, hs⟩
    obtain ⟨-, issuer, serial, hidentifier, -, hraw, -, -, hsame⟩ :=
      signerIdentifier_of_makes hcertificate hmakes
    rw [hserial] at hraw hsame
    have hone : Der.encodeNat (Der.integerValue [0xff]).natAbs = [0x02, 0x01, 0x01] := by
      decide +kernel
    have hnegative : ¬0 ≤ Der.integerValue [0xff] := by decide
    refine ⟨who, s, issuer, serial, hcertificate, hmakes, hserial, hidentifier, ?_, ?_⟩
    · rw [hraw, hone]
    · rw [hserial]
      exact mt hsame.1 hnegative

end Signer

end Authenticode.Cms
