import Authenticode.Error
import Authenticode.Hash.Algorithm

/-!
# Digests

A digest is a byte string of the length its algorithm produces. The length is
part of the type, so a digest never has to be checked again.
-/
namespace Authenticode

/-- The algorithm of a name, whose letters may be in any case. -/
def HashAlgorithm.parse (name : String) : Except Error HashAlgorithm :=
  match ofName? (lowerCase name) with
  | some a => .ok a
  | none => .error (.invalidInput (.unknownDigest (lowerCase name)))

/-- A digest: octets of the length that their algorithm fixes. -/
structure Digest where
  algorithm : HashAlgorithm
  bytes : Bytes
  length_eq : bytes.length = algorithm.size
  deriving DecidableEq

namespace Digest

structure LengthMismatch where
  expected : Nat
  actual : Nat
  deriving DecidableEq, Repr

def LengthMismatch.message (m : LengthMismatch) : String :=
  s!"digest length mismatch (expected {m.expected}, actual {m.actual})"

def ofBytes (a : HashAlgorithm) (b : Bytes) : Except LengthMismatch Digest :=
  if h : b.length = a.size then .ok ⟨a, b, h⟩ else .error ⟨a.size, b.length⟩

def compute (a : HashAlgorithm) (message : Bytes) : Digest :=
  ⟨a, a.hash message, a.length_hash message⟩

/-- The digest of zero octets, which stands in where only the length matters. -/
def zero (a : HashAlgorithm) : Digest := ⟨a, Bytes.zeros a.size, Bytes.length_zeros _⟩

def toHex (d : Digest) : String := d.bytes.toHex

def describe (d : Digest) : String :=
  "DigestBytes(algo=" ++ d.algorithm.name ++ ", " ++ d.toHex ++ ")"

@[simp] theorem compute_algorithm (a : HashAlgorithm) (m : Bytes) :
    (compute a m).algorithm = a := rfl

@[simp] theorem compute_bytes (a : HashAlgorithm) (m : Bytes) :
    (compute a m).bytes = a.hash m := rfl

@[simp] theorem zero_algorithm (a : HashAlgorithm) : (zero a).algorithm = a := rfl

end Digest

end Authenticode
