import Authenticode.Hash.Sha2

/-!
# Digest algorithms

The three members of the SHA-2 family an image can be signed with, their names,
sizes and object identifiers.
-/
namespace Authenticode

inductive HashAlgorithm
  | sha256
  | sha384
  | sha512
  deriving DecidableEq, Repr, Inhabited

namespace HashAlgorithm

def all : List HashAlgorithm := [sha256, sha384, sha512]

def name : HashAlgorithm → String
  | sha256 => "sha256"
  | sha384 => "sha384"
  | sha512 => "sha512"

def size : HashAlgorithm → Nat
  | sha256 => 32
  | sha384 => 48
  | sha512 => 64

def index : HashAlgorithm → Nat
  | sha256 => 0
  | sha384 => 1
  | sha512 => 2

/-- The content octets of the object identifier. -/
def oid (a : HashAlgorithm) : Bytes :=
  [0x60, 0x86, 0x48, 0x01, 0x65, 0x03, 0x04, 0x02,
    match a with | sha256 => 1 | sha384 => 2 | sha512 => 3]

def ofOid? (octets : Bytes) : Option HashAlgorithm := all.find? fun a => a.oid == octets

/-- The algorithm of a name in lower case, with or without the hyphen. -/
def ofName? (name : String) : Option HashAlgorithm :=
  if name = "sha256" ∨ name = "sha-256" then some sha256
  else if name = "sha384" ∨ name = "sha-384" then some sha384
  else if name = "sha512" ∨ name = "sha-512" then some sha512
  else none

def hash : HashAlgorithm → Bytes → Bytes
  | sha256 => Sha2.sha256
  | sha384 => Sha2.sha384
  | sha512 => Sha2.sha512

@[simp] theorem length_hash (a : HashAlgorithm) (data : Bytes) : (a.hash data).length = a.size := by
  cases a <;> simp [hash, size]

@[simp] theorem ofOid?_oid (a : HashAlgorithm) : ofOid? a.oid = some a := by
  cases a <;> decide

end HashAlgorithm

end Authenticode
