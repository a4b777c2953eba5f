import Authenticode.Bytes

/-!
# Base64

Three octets become four symbols. A last group of one or two octets is written
with padding; a reader may leave padding out, or give less of it, but the unused
bits of the last symbol have to be zero.
-/
namespace Authenticode.Base64

/-- The 64 symbols in the order of their values. -/
def alphabet : List Char :=
  "ABCDEFGHIJKLMNOPQRSTUVWXYZabcdefghijklmnopqrstuvwxyz0123456789+/".toList

def symbol (n : Nat) : Char := alphabet.getD n '='

def value? (c : Char) : Option Nat :=
  if 'A' ≤ c ∧ c ≤ 'Z' then some (c.toNat - 'A'.toNat)
  else if 'a' ≤ c ∧ c ≤ 'z' then some (c.toNat - 'a'.toNat + 26)
  else if '0' ≤ c ∧ c ≤ '9' then some (c.toNat - '0'.toNat + 52)
  else if c = '+' then some 62
  else if c = '/' then some 63
  else none

def encodeGroup (a b c : UInt8) : List Char :=
  let n := a.toNat * 65536 + b.toNat * 256 + c.toNat
  [symbol (n / 262144), symbol (n / 4096 % 64), symbol (n / 64 % 64), symbol (n % 64)]

/-- The symbols of a byte string, padded to whole groups. -/
def encode : Bytes → List Char
  | [] => []
  | [a] => (encodeGroup a 0 0).take 2 ++ ['=', '=']
  | [a, b] => (encodeGroup a b 0).take 3 ++ ['=']
  | a :: b :: c :: rest => encodeGroup a b c ++ encode rest

/-- One octet from two symbols, if the unused bits are zero. -/
def decodeTwo (a b : Char) : Option Bytes := do
  let x ← value? a
  let y ← value? b
  if y % 16 = 0 then some [(x * 4 + y / 16).toUInt8] else none

/-- Two octets from three symbols, if the unused bits are zero. -/
def decodeThree (a b c : Char) : Option Bytes := do
  let x ← value? a
  let y ← value? b
  let z ← value? c
  if z % 4 = 0 then some [(x * 4 + y / 16).toUInt8, (y % 16 * 16 + z / 4).toUInt8] else none

def decodeFour (a b c d : Char) : Option Bytes := do
  let x ← value? a
  let y ← value? b
  let z ← value? c
  let w ← value? d
  some [(x * 4 + y / 16).toUInt8, (y % 16 * 16 + z / 4).toUInt8, (z % 4 * 64 + w).toUInt8]

/-- The octets of a symbol string; padding is taken at its end only, and only as the third and
fourth symbol of a group. -/
def decode : List Char → Option Bytes
  | [] => some []
  | [_] => none
  | [a, b] => decodeTwo a b
  | [a, b, c] => if c = '=' then decodeTwo a b else decodeThree a b c
  | [a, b, c, d] =>
    if d = '=' then if c = '=' then decodeTwo a b else decodeThree a b c
    else decodeFour a b c d
  | a :: b :: c :: d :: rest => do
    let group ← decodeFour a b c d
    let others ← decode rest
    some (group ++ others)

end Authenticode.Base64
