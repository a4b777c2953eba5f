import Authenticode.Cms.IndirectData
import Authenticode.Key.Private

/-!
# Signature values

How a private key turns a message into a signature value. RSA pads the digest in one way
only, but hides what it raises to the secret exponent behind a random factor; a curve key
multiplies by a random number. Random numbers are drawn one after the other until one is
of use. Ed25519 keys cannot sign a digest made elsewhere.
-/
namespace Authenticode.Key

namespace RsaKey

/-- The power of `m` to the secret exponent, put together from its remainders by the factors. -/
def byFactors (k : RsaKey) (m : Nat) : Nat :=
  let r := Modular.pow k.p m k.secretP
  let s := Modular.pow k.q m k.secretQ
  Modular.sub k.p r s * k.coefficient % k.p * k.q + s

/-- The power of `m` to the secret exponent. What the factors give is taken if the public exponent
leads back to `m`. -/
def raise (k : RsaKey) (m : Nat) : Nat :=
  let s := k.byFactors m
  if Modular.pow k.modulus s k.exponent = m % k.modulus then s else Modular.pow k.modulus m k.secret

/-- The power of `m` to the secret exponent, with `m` hidden behind the first of the random numbers
that has an inverse. The moduli have to be odd. Where both exponents belong together, the random
number does not show in the result. -/
def power? (k : RsaKey) (draws : List Nat) (m : Nat) : Option Nat := do
  guard (k.modulus % 2 = 1 ∧ k.p % 2 = 1 ∧ k.q % 2 = 1)
  let a ← draws.find? fun a => Nat.gcd a k.modulus = 1
  let hidden := k.raise (m * Modular.pow k.modulus a k.exponent % k.modulus)
  some (hidden * Modular.inverse k.modulus a % k.modulus)

end RsaKey

namespace PrivateKey

/-- Octets of an RSA block beside the padding and the digest: three marks and eight of padding. -/
def rsaOverhead : Nat := 11

def rsaBlock (width : Nat) (info : Bytes) : Bytes :=
  [0, 1] ++ List.replicate (width - 3 - info.length) 0xff ++ [0] ++ info

/-- The RSA signature of a digest, if the modulus has room for it. -/
def signRsa? (k : RsaKey) (draws : List Nat) (d : Digest) : Option Bytes := do
  let width := (Bytes.magnitude k.modulus).length
  guard (d.info.length + rsaOverhead ≤ width)
  let power ← k.power? draws (Bytes.beNat (rsaBlock width d.info))
  some (Bytes.ofBe width power)

/-- The two numbers of a curve signature with a random multiplier, unless one of them is zero. -/
def signWith? (curve : Curve) (secret : Nat) (digest : Bytes) (draw : Nat) : Option (Nat × Nat) := do
  let order := curve.parameters.order
  let k := draw % (order - 1) + 1
  let (x, _) ← curve.mulGenerator k
  let r := x % order
  let e := Bytes.beNat (digest.take curve.width)
  let s := Modular.inverse order k * (e + r * secret) % order
  guard (r ≠ 0 ∧ s ≠ 0)
  some (r, s)

def signCurve? (curve : Curve) (secret : Nat) (draws : List Nat) (digest : Bytes) :
    Option Bytes := do
  let (r, s) ← draws.findSome? (signWith? curve secret digest)
  some (Der.encodeParts Der.tagSequence [Der.encodeNat r, Der.encodeNat s])

/-- The signature value of a message, made with the random numbers that are drawn. -/
def sign (key : PrivateKey) (a : HashAlgorithm) (message : Bytes) (draws : List Nat) :
    Except Error Bytes :=
  let digest := Digest.compute a message
  let value := match key with
    | .rsa k => signRsa? k draws digest
    | .ec c _ k _ _ => signCurve? c k draws digest.bytes
    | .ed25519 _ => none
  match value with
  | some v => .ok v
  | none => .error .cryptographic

end PrivateKey

end Authenticode.Key
