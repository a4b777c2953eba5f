import Authenticode.Bytes
import Authenticode.Number.Modular

/-!
# Prime-field elliptic curves

The three curves keys may live on, their group law in affine coordinates, and the
octet forms of their points.
-/
namespace Authenticode.Key

inductive Curve
  | p256
  | p384
  | p521
  deriving DecidableEq, Repr

/-- The numbers that fix a curve: the field, the constant term, the order and the generator. -/
structure CurveParameters where
  field : Nat
  constant : Nat
  order : Nat
  generatorX : Nat
  generatorY : Nat

namespace Curve

def all : List Curve := [p256, p384, p521]

def width : Curve → Nat
  | p256 => 32
  | p384 => 48
  | p521 => 66

/-- The content octets of the curve's object identifier. -/
def oid : Curve → Bytes
  | p256 => [0x2a, 0x86, 0x48, 0xce, 0x3d, 0x03, 0x01, 0x07]
  | p384 => [0x2b, 0x81, 0x04, 0x00, 0x22]
  | p521 => [0x2b, 0x81, 0x04, 0x00, 0x23]

def ofOid? (octets : Bytes) : Option Curve := all.find? fun c => c.oid == octets

/-- The number that words of 64 bits spell, the highest first. -/
def ofWords (words : List Nat) : Nat := words.foldl (fun n w => n * 0x10000000000000000 + w) 0

def parameters : Curve → CurveParameters
  | p256 =>
    ⟨0xffffffff00000001000000000000000000000000ffffffffffffffffffffffff,
      0x5ac635d8aa3a93e7b3ebbd55769886bc651d06b0cc53b0f63bce3c3e27d2604b,
      0xffffffff00000000ffffffffffffffffbce6faada7179e84f3b9cac2fc632551,
      0x6b17d1f2e12c4247f8bce6e563a440f277037d812deb33a0f4a13945d898c296,
      0x4fe342e2fe1a7f9b8ee7eb4a7c0f9e162bce33576b315ececbb6406837bf51f5⟩
  | p384 =>
    ⟨ofWords [0xffffffffffffffff, 0xffffffffffffffff, 0xffffffffffffffff, 0xfffffffffffffffe,
        0xffffffff00000000, 0x00000000ffffffff],
      ofWords [0xb3312fa7e23ee7e4, 0x988e056be3f82d19, 0x181d9c6efe814112, 0x0314088f5013875a,
        0xc656398d8a2ed19d, 0x2a85c8edd3ec2aef],
      ofWords [0xffffffffffffffff, 0xffffffffffffffff, 0xffffffffffffffff, 0xc7634d81f4372ddf,
        0x581a0db248b0a77a, 0xecec196accc52973],
      ofWords [0xaa87ca22be8b0537, 0x8eb1c71ef320ad74, 0x6e1d3b628ba79b98, 0x59f741e082542a38,
        0x5502f25dbf55296c, 0x3a545e3872760ab7],
      ofWords [0x3617de4a96262c6f, 0x5d9e98bf9292dc29, 0xf8f41dbd289a147c, 0xe9da3113b5f0b8c0,
        0x0a60b1ce1d7e819d, 0x7a431d7c90ea0e5f]⟩
  | p521 =>
    ⟨ofWords [0x1ff, 0xffffffffffffffff, 0xffffffffffffffff, 0xffffffffffffffff,
        0xffffffffffffffff, 0xffffffffffffffff, 0xffffffffffffffff, 0xffffffffffffffff,
        0xffffffffffffffff],
      ofWords [0x51, 0x953eb9618e1c9a1f, 0x929a21a0b68540ee, 0xa2da725b99b315f3,
        0xb8b489918ef109e1, 0x56193951ec7e937b, 0x1652c0bd3bb1bf07, 0x3573df883d2c34f1,
        0xef451fd46b503f00],
      ofWords [0x1ff, 0xffffffffffffffff, 0xffffffffffffffff, 0xffffffffffffffff,
        0xfffffffffffffffa, 0x51868783bf2f966b, 0x7fcc0148f709a5d0, 0x3bb5c9b8899c47ae,
        0xbb6fb71e91386409],
      ofWords [0xc6, 0x858e06b70404e9cd, 0x9e3ecb662395b442, 0x9c648139053fb521,
        0xf828af606b4d3dba, 0xa14b5e77efe75928, 0xfe1dc127a2ffa8de, 0x3348b3c1856a429b,
        0xf97e7e31c2e5bd66],
      ofWords [0x118, 0x39296a789a3bc004, 0x5c8a5fb42c7d1bd9, 0x98f54449579b4468,
        0x17afbd17273e662c, 0x97ee72995ef42640, 0xc550b9013fad0761, 0x353c7086a272c240,
        0x88be94769fd16650]⟩

/-- A point: the two coordinates, or the point at infinity. -/
abbrev Point := Option (Nat × Nat)

variable (c : Curve)

/-- The right side of the curve's equation at `x`; the linear coefficient is -3 on every curve. -/
def cubic (x : Nat) : Nat :=
  let q := c.parameters
  Modular.sub q.field (x * x * x + q.constant) (3 * x)

def contains (x y : Nat) : Bool :=
  let q := c.parameters
  x < q.field && y < q.field && y * y % q.field == c.cubic x

/-- The chord through two points with this slope, reflected. -/
def reflect (slope x₁ y₁ x₂ : Nat) : Point :=
  let p := c.parameters.field
  let x := Modular.sub p (slope * slope) (x₁ + x₂)
  some (x, Modular.sub p (slope * Modular.sub p x₁ x) y₁)

def add : Point → Point → Point
  | none, q => q
  | p, none => p
  | some (x₁, y₁), some (x₂, y₂) =>
    let p := c.parameters.field
    if x₁ ≠ x₂ then
      c.reflect (Modular.sub p y₂ y₁ * Modular.inverse p (Modular.sub p x₂ x₁) % p) x₁ y₁ x₂
    else if (y₁ + y₂) % p = 0 then none
    else c.reflect (Modular.sub p (3 * x₁ * x₁) 3 * Modular.inverse p (2 * y₁) % p) x₁ y₁ x₂

/-- `k` times the point, added to `acc`, by doubling. -/
def mulAdd (k : Nat) (p acc : Point) : Point :=
  if k = 0 then acc else mulAdd (k / 2) (c.add p p) (if k % 2 = 1 then c.add acc p else acc)
termination_by k
decreasing_by omega

def mulGenerator (k : Nat) : Point :=
  c.mulAdd k (some (c.parameters.generatorX, c.parameters.generatorY)) none

inductive PointForm
  | uncompressed
  | compressed
  deriving DecidableEq, Repr

def encodePoint (form : PointForm) (x y : Nat) : Bytes :=
  match form with
  | .uncompressed => 0x04 :: Bytes.ofBe c.width x ++ Bytes.ofBe c.width y
  | .compressed => (0x02 + (y % 2).toUInt8) :: Bytes.ofBe c.width x

/-- The point of the curve that octets denote, with their form. -/
def decodePoint? (b : Bytes) : Option (PointForm × Nat × Nat) :=
  match b with
  | mark :: rest =>
    if mark = 0x04 ∧ rest.length = 2 * c.width then
      let x := Bytes.beNat (rest.take c.width)
      let y := Bytes.beNat (rest.drop c.width)
      if c.contains x y then some (.uncompressed, x, y) else none
    else if (mark = 0x02 ∨ mark = 0x03) ∧ rest.length = c.width then
      let p := c.parameters.field
      let x := Bytes.beNat rest
      -- each field size is 3 modulo 4, so this power is a square root wherever there is one
      let root := Modular.pow p (c.cubic x) ((p + 1) / 4)
      let y := if root % 2 = mark.toNat % 2 then root else Modular.sub p 0 root
      if c.contains x y then some (.compressed, x, y) else none
    else none
  | [] => none

end Curve

end Authenticode.Key
