import Authenticode.Armor.PemFile
import Authenticode.Key.Edwards
import Authenticode.Key.Public

/-!
# Private keys

Private keys come as `PrivateKeyInfo` or in the older form of their algorithm.
Where the octets of a curve key leave out the public point, it is computed. A key
file holds PEM blocks, of which the first that is a private key counts, or one key
without armor. Only RSA keys, keys on the three curves and Ed25519 keys are read: a key
of another kind or on another curve, also one with explicit curve parameters, is none.
-/
namespace Authenticode.Key

/-- The numbers of an RSA key. Nothing says that they belong together. -/
structure RsaKey where
  modulus : Nat
  exponent : Nat
  /-- The exponent that undoes the public one. -/
  secret : Nat
  p : Nat
  q : Nat
  /-- The secret exponent as it counts modulo `p`, and modulo `q`. -/
  secretP : Nat
  secretQ : Nat
  /-- The inverse of `q` modulo `p`. -/
  coefficient : Nat
  deriving DecidableEq, Repr

inductive PrivateKey
  | rsa (key : RsaKey)
  | ec (curve : Curve) (form : Curve.PointForm) (secret x y : Nat)
  | ed25519 (seed : Bytes)
  deriving DecidableEq, Repr

namespace PrivateKey

def publicKey : PrivateKey → PublicKey
  | rsa k => .rsa k.modulus k.exponent
  | ec c form _ x y => .ec c form x y
  | ed25519 seed => .ed25519 (Edwards.publicKey seed)

def signatureSize (k : PrivateKey) : Nat := k.publicKey.signatureSize

/-- The RSA form: a version and the numbers. Version 1 is that of keys with more factors. -/
def rsaOfFields? (fields : List Der.Element) : Option PrivateKey := do
  match ← fields.mapM Der.Element.natural? with
  | [version, n, e, d, p, q, dp, dq, c] =>
    if version = 1 then none else some (rsa ⟨n, e, d, p, q, dp, dq, c⟩)
  | _ => none

/-- The optional parts of the curve form: the curve under tag 0 and the public point under tag 1. -/
def curveParts? : List Der.Element → Option (Option Bytes × Option Bytes)
  | [] => some (none, none)
  | [e] =>
    if e.tag = 0xa0 then do some (some (← (← e.only? 0xa0).oid?), none)
    else do some (none, some (← (← e.only? 0xa1).bits?))
  | [e, f] => do some (some (← (← e.only? 0xa0).oid?), some (← (← f.only? 0xa1).bits?))
  | _ => none

/-- The curve form: a version, the secret, and perhaps the curve and the public point. -/
def curveOfFields? (outer : Option Bytes) : List Der.Element → Option PrivateKey
  | version :: secret :: parts => do
    let 1 ← version.natural? | none
    let (inner, point) ← curveParts? parts
    let curve ← Curve.ofOid? (← outer <|> inner)
    let k := Bytes.beNat (← secret.octets? Der.tagOctetString)
    match point with
    | some octets =>
      let (form, x, y) ← curve.decodePoint? octets
      some (ec curve form k x y)
    | none =>
      let (x, y) ← curve.mulGenerator k
      some (ec curve .uncompressed k x y)
  | _ => none

/-- The form with an algorithm identifier; attributes may follow the key. -/
def infoOfFields? : List Der.Element → Option PrivateKey
  | version :: algorithm :: key :: _ => do
    let _ ← version.natural?
    let (oid, parameters) ← algorithm.algorithm?
    let octets ← key.octets? Der.tagOctetString
    if oid = PublicKey.rsaOid then
      rsaOfFields? (← (← Der.first? Der.tagSequence octets).children? Der.tagSequence)
    else if oid = PublicKey.ecOid then
      curveOfFields? (← (← parameters).oid?)
        (← (← Der.first? Der.tagSequence octets).children? Der.tagSequence)
    else if oid = PublicKey.ed25519Oid then
      let seed ← (← Der.first? Der.tagOctetString octets).octets? Der.tagOctetString
      if parameters.isNone ∧ seed.length = 32 then some (ed25519 seed) else none
    else none
  | _ => none

def ofDer? (data : Bytes) : Option PrivateKey := do
  let fields ← (← Der.first? Der.tagSequence data).children? Der.tagSequence
  infoOfFields? fields <|> rsaOfFields? fields <|> curveOfFields? none fields

def isRsa : PrivateKey → Bool
  | rsa .. => true
  | _ => false

def isCurve : PrivateKey → Bool
  | ec .. => true
  | _ => false

/-- The private key in the elements of a block: the label says which forms are taken. -/
def ofBlock? (label : Bytes) (fields : List Der.Element) : Option PrivateKey :=
  if label = Bytes.ofText "PRIVATE KEY" ∨ label = Bytes.ofText "ENCRYPTED PRIVATE KEY" then
    infoOfFields? fields
  else if label = Bytes.ofText "RSA PRIVATE KEY" then
    rsaOfFields? fields <|> (infoOfFields? fields).filter isRsa
  else if label = Bytes.ofText "EC PRIVATE KEY" then
    curveOfFields? none fields <|> (infoOfFields? fields).filter isCurve
  else none

def labels : List Bytes :=
  [Bytes.ofText "PRIVATE KEY", Bytes.ofText "ENCRYPTED PRIVATE KEY", Bytes.ofText "RSA PRIVATE KEY",
    Bytes.ofText "EC PRIVATE KEY"]

/-- Octets of header lines from which on a block is taken to be encrypted. -/
def minEncryptionHeaders : Nat := 11

def ofEntry? (e : Armor.PemFile.Entry) : Option PrivateKey := do
  ofBlock? e.label (← (← Der.first? Der.tagSequence e.data).children? Der.tagSequence)

/-- The first private key among blocks. Broken blocks and those without a key are passed over; an
encrypted key ends the search. -/
def ofEntries? : List (Option Armor.PemFile.Entry) → Option PrivateKey
  | [] => none
  | none :: rest => ofEntries? rest
  | some e :: rest =>
    if minEncryptionHeaders ≤ e.headers.length then
      if labels.contains e.label then none else ofEntries? rest
    else ofEntry? e <|> ofEntries? rest

/-- The key in a key file, if it is an RSA key, one on the three named curves or an Ed25519 key. -/
def ofFile? (file : Bytes) : Option PrivateKey :=
  ofEntries? (Armor.PemFile.entries file) <|> ofDer? file

end PrivateKey

end Authenticode.Key
