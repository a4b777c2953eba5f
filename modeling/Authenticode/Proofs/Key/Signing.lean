import Mathlib.FieldTheory.Finite.Basic
import Mathlib.NumberTheory.LucasPrimality
import Authenticode.Cms.SignedData
import Authenticode.Proofs.Steps

/-!
# RSA signatures

What an RSA key raises to its secret exponent is hidden behind a random number. Where the
exponents undo each other the number does not show in the result, so a signature is a
function of the key and the message. Every key that is made of two primes is of that kind,
and its factors alone give the power. One such key, with a certificate for it, stands at the
end.
-/
namespace Authenticode

namespace Modular

variable {m a : Nat}

theorem mulPow_eq (m base e acc : Nat) : mulPow m base e acc = acc * base ^ e % m := by
  fun_induction mulPow m base e acc with
  | case1 base acc => rw [pow_zero, mul_one]
  | case2 base e acc he ih =>
    have hsquare : (base * base % m) ^ (e / 2) ≡ (base * base) ^ (e / 2) [MOD m] :=
      (Nat.mod_modEq _ _).pow _
    have hpow : base ^ e = base ^ (e % 2) * (base * base) ^ (e / 2) := by
      rw [← pow_two, ← pow_mul, ← pow_add, Nat.mod_add_div]
    rw [hpow, ← mul_assoc]
    refine ih.trans ?_
    split
    · next hodd =>
      rw [hodd, pow_one]
      exact (Nat.mod_modEq _ _).mul hsquare
    · next heven =>
      rw [Nat.mod_two_ne_one.1 heven, pow_zero, mul_one]
      exact hsquare.mul_left acc

theorem pow_eq (m base e : Nat) : pow m base e = base ^ e % m := by
  rw [pow, mulPow_eq, one_mul, ← Nat.pow_mod]

theorem bezout_mul_modEq {n c : Int} (r s : Nat) (x y : Int) (hr : x * c ≡ r [ZMOD n])
    (hs : y * c ≡ s [ZMOD n]) : bezout r s x y * c ≡ (Nat.gcd r s : Nat) [ZMOD n] := by
  fun_induction bezout r s x y with
  | case1 r x y => rwa [Nat.gcd_zero_right]
  | case2 r s x y hs' ih =>
    have hrem : (x - (r / s : Nat) * y) * c ≡ (r % s : Nat) [ZMOD n] := by
      have hsub := hr.sub (hs.mul_left (r / s : Nat))
      have hdiv : (r : Int) - (r / s : Nat) * s = (r % s : Nat) := by
        rw [← Int.natCast_mul, Nat.mod_eq_sub_div_mul, Int.ofNat_sub (Nat.div_mul_le_self r s)]
      rwa [hdiv, ← mul_assoc, ← sub_mul] at hsub
    rw [Nat.gcd_comm, Nat.gcd_rec, Nat.gcd_comm]
    exact ih hs hrem

theorem inverse_mul_modEq (hm : 0 < m) (h : Nat.gcd a m = 1) : inverse m a * a ≡ 1 [MOD m] := by
  have hbezout : bezout (a % m) m 1 0 * a ≡ (Nat.gcd (a % m) m : Nat) [ZMOD m] := by
    apply bezout_mul_modEq
    · rw [one_mul]
      exact_mod_cast (Int.mod_modEq (a : Int) m).symm
    · rw [zero_mul]
      exact (Int.modEq_zero_iff_dvd.2 dvd_rfl).symm
  have hpos : 0 ≤ bezout (a % m) m 1 0 % (m : Int) :=
    Int.emod_nonneg _ (Int.natCast_ne_zero.2 hm.ne')
  rw [← Nat.gcd_rec, Nat.gcd_comm, h] at hbezout
  apply Int.natCast_modEq_iff.1
  rw [inverse, Int.natCast_mul, Int.toNat_of_nonneg hpos]
  exact ((Int.mod_modEq _ _).mul_right _).trans hbezout

theorem sub_add_modEq (hm : 0 < m) (a b : Nat) : sub m a b + b ≡ a [MOD m] := by
  have hlt := Nat.mod_lt b hm
  calc
    sub m a b + b ≡ a + m - b % m + b % m [MOD m] :=
      (Nat.mod_modEq _ _).add (Nat.mod_modEq _ _).symm
    _ = a + m := by omega
    _ ≡ a [MOD m] := Nat.add_modEq_right

theorem ne_zero_of_modEq_one (hm : 1 < m) (h : a ≡ 1 [MOD m]) : a ≠ 0 := by
  rintro rfl
  have := (Nat.modEq_zero_iff_dvd.1 h.symm).antisymm (one_dvd m)
  omega

/-- Fermat's little theorem, also for what the prime divides. -/
theorem pow_modEq_pow_of_prime {r b : Nat} (hr : r.Prime) (ha : a ≠ 0) (hb : b ≠ 0)
    (h : a ≡ b [MOD r - 1]) (x : Nat) : x ^ a ≡ x ^ b [MOD r] := by
  by_cases hx : r ∣ x
  · exact (Nat.modEq_zero_iff_dvd.2 (hx.trans (dvd_pow_self x ha))).trans
      (Nat.modEq_zero_iff_dvd.2 (hx.trans (dvd_pow_self x hb))).symm
  · have hone := Nat.ModEq.pow_totient ((Nat.Prime.coprime_iff_not_dvd hr).2 hx).symm
    rw [Nat.totient_prime hr] at hone
    have hremainder : ∀ n, x ^ n ≡ x ^ (n % (r - 1)) [MOD r] := by
      intro n
      have hsplit : x ^ n = (x ^ (r - 1)) ^ (n / (r - 1)) * x ^ (n % (r - 1)) := by
        rw [← pow_mul, ← pow_add, Nat.div_add_mod]
      rw [hsplit]
      simpa using (hone.pow (n / (r - 1))).mul_right (x ^ (n % (r - 1)))
    calc
      x ^ a ≡ x ^ (a % (r - 1)) [MOD r] := hremainder a
      _ = x ^ (b % (r - 1)) := by rw [h]
      _ ≡ x ^ b [MOD r] := (hremainder b).symm

/-- A number is prime whose predecessor has two prime factors, one of them two, if a number has
just that order. -/
theorem prime_of_pow {p a c n : Nat} (hc : c.Prime) (hp : p = c * 2 ^ n + 1)
    (hfull : pow p a (p - 1) = 1) (htwo : pow p a ((p - 1) / 2) ≠ 1)
    (hodd : pow p a ((p - 1) / c) ≠ 1) : p.Prime := by
  have hlarge : 1 < p := by
    have := Nat.mul_pos hc.pos (Nat.two_pow_pos n)
    omega
  have hiff : ∀ e, (a : ZMod p) ^ e = 1 ↔ pow p a e = 1 := by
    intro e
    rw [pow_eq, ← Nat.cast_pow, ← Nat.cast_one, ZMod.natCast_eq_natCast_iff',
      Nat.mod_eq_of_lt hlarge]
  apply lucas_primality p (a : ZMod p) ((hiff _).2 hfull)
  intro r hr hdvd
  rw [Ne, hiff]
  rw [hp, Nat.add_sub_cancel] at hdvd
  rcases hr.dvd_mul.1 hdvd with hdvd | hdvd
  · rwa [(Nat.prime_dvd_prime_iff_eq hr hc).1 hdvd]
  · rwa [(Nat.prime_dvd_prime_iff_eq hr Nat.prime_two).1 (hr.dvd_of_dvd_pow hdvd)]

end Modular

namespace Key

namespace RsaKey

variable {k : RsaKey} {draws draws' : List Nat}

/-- The exponents undo each other, and the moduli are such that the key signs. -/
structure Valid (k : RsaKey) : Prop where
  odd : k.modulus % 2 = 1 ∧ k.p % 2 = 1 ∧ k.q % 2 = 1
  pow_pow : ∀ x, x ^ (k.exponent * k.secret) ≡ x [MOD k.modulus]

/-- One of the random numbers can hide what is raised. -/
def Usable (k : RsaKey) (draws : List Nat) : Prop := ∃ a ∈ draws, Nat.gcd a k.modulus = 1

/-- The result does not depend on the random numbers, as long as one can be used. -/
def SignsAlike (k : RsaKey) : Prop :=
  ∀ draws draws' m, k.Usable draws → k.Usable draws' → k.power? draws m = k.power? draws' m

theorem Valid.raise_modEq (h : k.Valid) (m : Nat) : k.raise m ≡ m ^ k.secret [MOD k.modulus] := by
  simp only [raise]
  split
  · next hback =>
    rw [Modular.pow_eq] at hback
    calc
      k.byFactors m ≡ k.byFactors m ^ (k.exponent * k.secret) [MOD k.modulus] :=
        (h.pow_pow _).symm
      _ = (k.byFactors m ^ k.exponent) ^ k.secret := pow_mul ..
      _ ≡ m ^ k.secret [MOD k.modulus] := Nat.ModEq.pow _ hback
  · rw [Modular.pow_eq]
    exact Nat.mod_modEq _ _

theorem mem_and_gcd_of_find? {a : Nat}
    (h : draws.find? (fun a => Nat.gcd a k.modulus = 1) = some a) :
    a ∈ draws ∧ Nat.gcd a k.modulus = 1 :=
  ⟨List.mem_of_find?_eq_some h, by simpa using List.find?_some h⟩

theorem Valid.power?_eq (h : k.Valid) (hdraws : k.Usable draws) (m : Nat) :
    k.power? draws m = some (m ^ k.secret % k.modulus) := by
  obtain ⟨b, hb, hcoprime⟩ := hdraws
  obtain ⟨a, ha⟩ : ∃ a, draws.find? (fun a => Nat.gcd a k.modulus = 1) = some a :=
    Option.isSome_iff_exists.1 (List.find?_isSome.2 ⟨b, hb, decide_eq_true hcoprime⟩)
  have hgcd := (mem_and_gcd_of_find? ha).2
  have hpos : 0 < k.modulus := by
    have := h.odd.1
    omega
  have hhidden : k.raise (m * Modular.pow k.modulus a k.exponent % k.modulus)
      ≡ m ^ k.secret * a [MOD k.modulus] := by
    refine (h.raise_modEq _).trans ?_
    rw [Modular.pow_eq]
    calc
      (m * (a ^ k.exponent % k.modulus) % k.modulus) ^ k.secret
          ≡ (m * a ^ k.exponent) ^ k.secret [MOD k.modulus] :=
        ((Nat.mod_modEq _ _).trans ((Nat.mod_modEq _ _).mul_left m)).pow _
      _ = m ^ k.secret * a ^ (k.exponent * k.secret) := by rw [mul_pow, pow_mul]
      _ ≡ m ^ k.secret * a [MOD k.modulus] := (h.pow_pow a).mul_left _
  have hresult : k.raise (m * Modular.pow k.modulus a k.exponent % k.modulus)
      * Modular.inverse k.modulus a ≡ m ^ k.secret [MOD k.modulus] := by
    have hinverse := (Modular.inverse_mul_modEq hpos hgcd).mul_left (m ^ k.secret)
    rw [mul_one, mul_comm (Modular.inverse ..), ← mul_assoc] at hinverse
    exact (hhidden.mul_right _).trans hinverse
  simp only [power?, h.odd, ha, guard]
  exact congrArg some hresult

theorem Valid.signsAlike (h : k.Valid) : k.SignsAlike := by
  intro draws draws' m hdraws hdraws'
  rw [h.power?_eq hdraws, h.power?_eq hdraws']

theorem usable_of_power? {m r : Nat} (h : k.power? draws m = some r) : k.Usable draws := by
  obtain ⟨-, -, h⟩ := Option.bind_eq_some_iff.1 h
  obtain ⟨a, ha, -⟩ := Option.bind_eq_some_iff.1 h
  exact ⟨a, mem_and_gcd_of_find? ha⟩

theorem byFactors_modEq (hp : k.p.Prime) (hq : k.q.Prime) (hne : k.p ≠ k.q)
    (hsecretP : k.secretP ≠ 0) (hsecretQ : k.secretQ ≠ 0) (hsecret : k.secret ≠ 0)
    (hpd : k.secretP ≡ k.secret [MOD k.p - 1]) (hqd : k.secretQ ≡ k.secret [MOD k.q - 1])
    (hcoefficient : k.coefficient * k.q ≡ 1 [MOD k.p]) (m : Nat) :
    k.byFactors m ≡ m ^ k.secret [MOD k.p * k.q] := by
  apply (Nat.modEq_and_modEq_iff_modEq_mul ((Nat.coprime_primes hp hq).2 hne)).1
  simp only [byFactors, Modular.pow_eq]
  constructor
  · have hdifference : ∀ c, c * k.coefficient % k.p * k.q ≡ c [MOD k.p] := by
      intro c
      have h := hcoefficient.mul_left c
      rw [mul_one, ← mul_assoc] at h
      exact ((Nat.mod_modEq _ _).mul_right _).trans h
    calc
      _ ≡ _ + m ^ k.secretQ % k.q [MOD k.p] := (hdifference _).add_right _
      _ ≡ m ^ k.secretP % k.p [MOD k.p] := Modular.sub_add_modEq hp.pos _ _
      _ ≡ m ^ k.secretP [MOD k.p] := Nat.mod_modEq _ _
      _ ≡ m ^ k.secret [MOD k.p] := Modular.pow_modEq_pow_of_prime hp hsecretP hsecret hpd m
  · calc
      _ ≡ 0 + m ^ k.secretQ % k.q [MOD k.q] :=
        (Nat.modEq_zero_iff_dvd.2 (dvd_mul_left ..)).add_right _
      _ = m ^ k.secretQ % k.q := Nat.zero_add _
      _ ≡ m ^ k.secretQ [MOD k.q] := Nat.mod_modEq _ _
      _ ≡ m ^ k.secret [MOD k.q] := Modular.pow_modEq_pow_of_prime hq hsecretQ hsecret hqd m

/-- The key with these factors and this public exponent. -/
def ofPrimes (p q e : Nat) : RsaKey :=
  let d := Modular.inverse ((p - 1) * (q - 1)) e
  ⟨p * q, e, d, p, q, d % (p - 1), d % (q - 1), Modular.inverse p q⟩

section

variable {p q e : Nat} (hp : p.Prime) (hq : q.Prime) (hne : p ≠ q) (hp2 : 2 < p) (hq2 : 2 < q)
  (he : Nat.gcd e ((p - 1) * (q - 1)) = 1)
include hp2 hq2 he

theorem exponent_mul_secret_modEq :
    e * (ofPrimes p q e).secret ≡ 1 [MOD p - 1] ∧ e * (ofPrimes p q e).secret ≡ 1 [MOD q - 1] := by
  have hpos : 0 < (p - 1) * (q - 1) := Nat.mul_pos (by omega) (by omega)
  have hinverse := Modular.inverse_mul_modEq hpos he
  rw [mul_comm (Modular.inverse ..)] at hinverse
  exact ⟨hinverse.of_dvd (dvd_mul_right ..), hinverse.of_dvd (dvd_mul_left ..)⟩

include hp hq hne

theorem valid_ofPrimes : (ofPrimes p q e).Valid := by
  have hodd : ∀ {r : Nat}, r.Prime → 2 < r → r % 2 = 1 := fun hr htwo =>
    Nat.odd_iff.1 (hr.odd_of_ne_two htwo.ne')
  obtain ⟨hsecretP, hsecretQ⟩ := exponent_mul_secret_modEq hp2 hq2 he
  have hnonzero := Modular.ne_zero_of_modEq_one (by omega) hsecretP
  refine ⟨⟨?_, hodd hp hp2, hodd hq hq2⟩, ?_⟩
  · exact Nat.odd_iff.1 ((Nat.odd_iff.2 (hodd hp hp2)).mul (Nat.odd_iff.2 (hodd hq hq2)))
  · intro x
    apply (Nat.modEq_and_modEq_iff_modEq_mul ((Nat.coprime_primes hp hq).2 hne)).1
    have hp1 := Modular.pow_modEq_pow_of_prime hp hnonzero one_ne_zero hsecretP x
    have hq1 := Modular.pow_modEq_pow_of_prime hq hnonzero one_ne_zero hsecretQ x
    rw [pow_one] at hp1 hq1
    exact ⟨hp1, hq1⟩

theorem byFactors_ofPrimes (m : Nat) :
    (ofPrimes p q e).byFactors m ≡ m ^ (ofPrimes p q e).secret [MOD p * q] := by
  obtain ⟨hsecretP, hsecretQ⟩ := exponent_mul_secret_modEq hp2 hq2 he
  have hnonzero : ∀ {r d : Nat}, 2 < r → e * d ≡ 1 [MOD r - 1] → d % (r - 1) ≠ 0 := fun hr h =>
    right_ne_zero_of_mul (Modular.ne_zero_of_modEq_one (by omega)
      (((Nat.mod_modEq _ _).mul_left e).trans h))
  have hsecret := right_ne_zero_of_mul (Modular.ne_zero_of_modEq_one (by omega) hsecretP)
  apply byFactors_modEq hp hq hne (hnonzero hp2 hsecretP) (hnonzero hq2 hsecretQ) hsecret
    (Nat.mod_modEq _ _) (Nat.mod_modEq _ _)
  exact Modular.inverse_mul_modEq hp.pos ((Nat.coprime_primes hq hp).2 hne.symm)

/-- A key that is made of two primes never falls back on the whole modulus. -/
theorem raise_ofPrimes (m : Nat) : (ofPrimes p q e).raise m = (ofPrimes p q e).byFactors m := by
  have hback : (ofPrimes p q e).byFactors m ^ e ≡ m [MOD p * q] :=
    calc
      (ofPrimes p q e).byFactors m ^ e ≡ (m ^ (ofPrimes p q e).secret) ^ e [MOD p * q] :=
        (byFactors_ofPrimes hp hq hne hp2 hq2 he m).pow e
      _ = m ^ (e * (ofPrimes p q e).secret) := by rw [← pow_mul, mul_comm]
      _ ≡ m [MOD p * q] := (valid_ofPrimes hp hq hne hp2 hq2 he).pow_pow m
  exact if_pos ((Modular.pow_eq ..).trans hback)

end

end RsaKey

namespace PrivateKey

variable {k : RsaKey} {algorithm : HashAlgorithm} {message value : Bytes}
  {draws draws' : List Nat}

theorem sign_rsa_eq_ok_iff : (rsa k).sign algorithm message draws = .ok value ↔
    let width := (Bytes.magnitude k.modulus).length
    let info := (Digest.compute algorithm message).info
    info.length + rsaOverhead ≤ width ∧ ∃ r,
      k.power? draws (Bytes.beNat (rsaBlock width info)) = some r ∧ Bytes.ofBe width r = value := by
  have hsign : (rsa k).sign algorithm message draws = .ok value ↔
      signRsa? k draws (Digest.compute algorithm message) = some value := by
    simp only [sign]
    cases signRsa? k draws (Digest.compute algorithm message) with
    | none => exact iff_of_false nofun nofun
    | some v => simp
  simp only [hsign, signRsa?, Option.bind_eq_bind, Option.bind_eq_some_iff, guard_eq_some_iff,
    Option.some.injEq, exists_const]

theorem sign_eq_of_signsAlike (hkey : k.SignsAlike)
    (h : (rsa k).sign algorithm message draws = .ok value) (hdraws : k.Usable draws') :
    (rsa k).sign algorithm message draws' = .ok value := by
  obtain ⟨hroom, r, hpower, hvalue⟩ := sign_rsa_eq_ok_iff.1 h
  have hused := RsaKey.usable_of_power? hpower
  rw [hkey draws draws' _ hused hdraws] at hpower
  exact sign_rsa_eq_ok_iff.2 ⟨hroom, r, hpower, hvalue⟩

end PrivateKey

namespace RsaKey

/-- A key of the least width that has room for a signed digest. -/
def least : RsaKey := ofPrimes (17 * 2 ^ 243 + 1) (37 * 2 ^ 236 + 1) 65537

theorem valid_least : least.Valid := by
  apply valid_ofPrimes
  · exact Modular.prime_of_pow (a := 3) (c := 17) (n := 243) (by decide) rfl (by decide +kernel)
      (by decide +kernel) (by decide +kernel)
  · exact Modular.prime_of_pow (a := 3) (c := 37) (n := 236) (by decide) rfl (by decide +kernel)
      (by decide +kernel) (by decide +kernel)
  · decide +kernel
  · decide +kernel
  · decide +kernel
  · decide +kernel

def encode (k : RsaKey) : Bytes :=
  Der.encodeParts Der.tagSequence
    ([0, k.modulus, k.exponent, k.secret, k.p, k.q, k.secretP, k.secretQ, k.coefficient].map
      Der.encodeNat)

end RsaKey

end Key

/-- A certificate with this serial number, one name for issuer and subject, and this key. What
nothing asks for is left empty. -/
def X509.Certificate.encode (serial name : Bytes) (key : Key.PublicKey) : Bytes :=
  let algorithm := Der.encodeParts Der.tagSequence [Der.encodeOid Key.PublicKey.rsaOid, Der.null]
  let name := Der.encode Der.tagSequence name
  let time := Der.encode Cms.Time.tagUtcTime []
  let body := Der.encodeParts Der.tagSequence
    [Der.encode Der.tagInteger serial, algorithm, name,
      Der.encodeParts Der.tagSequence [time, time], name, key.encode]
  Der.encodeParts Der.tagSequence [body, algorithm, Der.encode Der.tagBitString [0]]

def X509.Certificate.leastFile (serial : Bytes) : Bytes :=
  encode serial [] (Key.PrivateKey.rsa .least).publicKey

def Cms.SigningIdentity.least : SigningIdentity :=
  ⟨"a", (X509.Certificate.ofFile? (X509.Certificate.leastFile [1])).get (by decide +kernel),
    some (.rsa .least)⟩

end Authenticode
