import Authenticode.Der.Value
import Authenticode.Key.Curve

/-!
# Public keys

The keys a certificate may hold, read from and written as `SubjectPublicKeyInfo`: RSA
keys, keys on the three curves, and Ed25519 keys. A key of another kind or on another
curve, also one with explicit curve parameters, is not read.
-/
namespace Authenticode.Key

inductive PublicKey
  | rsa (modulus exponent : Nat)
  | ec (curve : Curve) (form : Curve.PointForm) (x y : Nat)
  | ed25519 (octets : Bytes)
  deriving DecidableEq, Repr

namespace PublicKey

/-- The identifier of RSA keys, 1.2.840.113549.1.1.1. -/
def rsaOid : Bytes := [0x2a, 0x86, 0x48, 0x86, 0xf7, 0x0d, 0x01, 0x01, 0x01]

/-- The identifier of elliptic curve keys, 1.2.840.10045.2.1. -/
def ecOid : Bytes := [0x2a, 0x86, 0x48, 0xce, 0x3d, 0x02, 0x01]

/-- The identifier of Ed25519 keys, 1.3.101.112. -/
def ed25519Oid : Bytes := [0x2b, 0x65, 0x70]

/-- The registry number of the Ed25519 key type. -/
def ed25519Type : Nat := 1087

def signatureSize : PublicKey → Nat
  | rsa n _ => (Bytes.magnitude n).length
  | ec .p256 .. => 72
  | ec .p384 .. => 104
  | ec .p521 .. => 139
  | ed25519 _ => 64

def sameAs : PublicKey → PublicKey → Bool
  | rsa n e, rsa n' e' => n = n' && e = e'
  | ec c _ x y, ec c' _ x' y' => c = c' && x = x' && y = y'
  | ed25519 k, ed25519 k' => k = k'
  | _, _ => false

/-- The key of an algorithm identifier and the octets of its bit string. Only RSA keys, keys on one of
the three named curves and Ed25519 keys are read. -/
def ofParts? (oid : Bytes) (parameters : Option Der.Element) (key : Bytes) : Option PublicKey := do
  if oid = rsaOid then
    let numbers ← (← Der.first? Der.tagSequence key).children? Der.tagSequence
    match numbers with
    | [n, e] => some (rsa (← n.natural?) (← e.natural?))
    | _ => none
  else if oid = ecOid then
    let curve ← Curve.ofOid? (← (← parameters).oid?)
    let (form, x, y) ← curve.decodePoint? key
    some (ec curve form x y)
  else if oid = ed25519Oid then
    if parameters.isNone ∧ key.length = 32 then some (ed25519 key) else none
  else none

def ofInfo? (info : Der.Element) : Option PublicKey := do
  match ← info.children? Der.tagSequence with
  | [algorithm, key] =>
    let (oid, parameters) ← algorithm.algorithm?
    ofParts? oid parameters (← key.bits?)
  | _ => none

def encode (k : PublicKey) : Bytes :=
  let info (algorithm : List Bytes) (key : Bytes) : Bytes :=
    Der.encodeParts Der.tagSequence [Der.encodeParts Der.tagSequence algorithm, Der.encodeBits key]
  match k with
  | rsa n e =>
    info [Der.encodeOid rsaOid, Der.null]
      (Der.encodeParts Der.tagSequence [Der.encodeNat n, Der.encodeNat e])
  | ec c form x y => info [Der.encodeOid ecOid, Der.encodeOid c.oid] (c.encodePoint form x y)
  | ed25519 key => info [Der.encodeOid ed25519Oid] key

end PublicKey

end Authenticode.Key
