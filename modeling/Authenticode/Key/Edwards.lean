import Authenticode.Hash.Sha2
import Authenticode.Number.Modular

/-!
# The twisted Edwards curve of Ed25519

Only what is needed to find the public key of a private one.
-/
namespace Authenticode.Key.Edwards

/-- The size of the field: 19 less than twice `topBit`. -/
def field : Nat := 0x7fffffffffffffffffffffffffffffffffffffffffffffffffffffffffffffed

def topBit : Nat := 0x4000000000000000000000000000000000000000000000000000000000000000

/-- The constant of the curve's equation, -121665 / 121666. -/
def constant : Nat := Modular.sub field 0 (121665 * Modular.inverse field 121666)

def generator : Nat × Nat :=
  (0x216936d3cd6e53fec0a4e231fdd6dc5c692cc7609525a7b2c9562d608f25d51a,
    0x6666666666666666666666666666666666666666666666666666666666666658)

def add (p q : Nat × Nat) : Nat × Nat :=
  let cross := constant * (p.1 * q.1 % field) % field * (p.2 * q.2 % field) % field
  let x := (p.1 * q.2 + q.1 * p.2) % field * Modular.inverse field (1 + cross)
  let y := (p.2 * q.2 + p.1 * q.1) % field * Modular.inverse field (Modular.sub field 1 cross)
  (x % field, y % field)

def mulAdd (k : Nat) (p acc : Nat × Nat) : Nat × Nat :=
  if k = 0 then acc else mulAdd (k / 2) (add p p) (if k % 2 = 1 then add acc p else acc)
termination_by k
decreasing_by omega

/-- The secret multiplier of a seed: half of its hash, made a multiple of eight with bit 254
set and none above. -/
def scalar (seed : Bytes) : Nat :=
  let n := Bytes.leNat ((Sha2.sha512 seed).take 32)
  n % topBit / 8 * 8 + topBit

/-- The public key of a seed: the second coordinate, with the parity of the first on top. -/
def publicKey (seed : Bytes) : Bytes :=
  let p := mulAdd (scalar seed) generator (0, 1)
  Bytes.ofLe 32 (p.2 + p.1 % 2 * (2 * topBit))

end Authenticode.Key.Edwards
