import Authenticode.Bytes

/-!
# The SHA-2 hash family

SHA-256, SHA-384 and SHA-512 share one construction: the message is padded to
whole blocks, each block is expanded to a schedule of words, and every word of
the schedule turns the eight-word state once. The family is written once for a
word type `W`; the two instances differ in word width, rotations and the number
of rounds. The main statements give the lengths of the three hashes.
-/
namespace Authenticode.Sha2

/-- What distinguishes one word width of the family from another. -/
structure Variant (W : Type) where
  /-- Octets in a word. -/
  width : Nat
  /-- The word with the given value modulo the word size. -/
  ofNat : Nat → W
  toNat : W → Nat
  small0 : W → W
  small1 : W → W
  big0 : W → W
  big1 : W → W
  /-- One constant for each round. -/
  constants : List W

/-- The eight words carried from round to round. -/
structure State (W : Type) where
  (a b c d e f g h : W)

def State.words {W : Type} (s : State W) : List W := [s.a, s.b, s.c, s.d, s.e, s.f, s.g, s.h]

section Construction

variable {W : Type} [Add W] [AndOp W] [XorOp W] [Complement W] (v : Variant W)

/-- The message with its end mark and bit length, filled up to whole blocks of sixteen words. -/
def pad (message : Bytes) : Bytes :=
  let block := 16 * v.width
  let used := message.length + 1 + 2 * v.width
  message ++ 0x80 :: Bytes.zeros ((block - used % block) % block)
    ++ Bytes.ofBe (2 * v.width) (8 * message.length)

/-- The first `n` big-endian words of a byte string. -/
def leadingWords : (n : Nat) → Bytes → List W
  | 0, _ => []
  | n + 1, b => v.ofNat (Bytes.beNat (b.take v.width)) :: leadingWords n (b.drop v.width)

/-- Extends the sixteen words of a block to one word for each round. -/
def schedule (block : Bytes) : Array W :=
  (List.range (v.constants.length - 16)).foldl (fun w i =>
    let word (j : Nat) := w.getD (i + j) (v.ofNat 0)
    w.push (v.small1 (word 14) + word 9 + v.small0 (word 1) + word 0))
    (leadingWords v 16 block).toArray

/-- One round, given the sum of its constant and its schedule word. -/
def turn (s : State W) (k : W) : State W :=
  let t1 := s.h + v.big1 s.e + ((s.e &&& s.f) ^^^ (~~~s.e &&& s.g)) + k
  let t2 := v.big0 s.a + ((s.a &&& s.b) ^^^ (s.a &&& s.c) ^^^ (s.b &&& s.c))
  ⟨t1 + t2, s.a, s.b, s.c, s.d + t1, s.e, s.f, s.g⟩

/-- Takes one block into the state. -/
def absorb (s : State W) (block : Bytes) : State W :=
  let t := (List.zipWith (· + ·) v.constants (schedule v block).toList).foldl (turn v) s
  ⟨s.a + t.a, s.b + t.b, s.c + t.c, s.d + t.d, s.e + t.e, s.f + t.f, s.g + t.g, s.h + t.h⟩

def absorbAll : (n : Nat) → State W → Bytes → State W
  | 0, s, _ => s
  | n + 1, s, b => absorbAll n (absorb v s (b.take (16 * v.width))) (b.drop (16 * v.width))

def digest (start : State W) (message : Bytes) : Bytes :=
  let padded := pad v message
  (absorbAll v (padded.length / (16 * v.width)) start padded).words.flatMap
    fun w => Bytes.ofBe v.width (v.toNat w)

theorem length_digest (start : State W) (message : Bytes) :
    (digest v start message).length = 8 * v.width := by
  simp only [digest, State.words, List.flatMap_cons, List.flatMap_nil, List.length_append,
    Bytes.length_ofBe, List.length_nil]
  omega

end Construction

/-- The first 64 bits of the fractional parts of the cube roots of the first eighty primes. -/
def cubeRoots : List UInt64 :=
  [0x428a2f98d728ae22, 0x7137449123ef65cd, 0xb5c0fbcfec4d3b2f, 0xe9b5dba58189dbbc,
    0x3956c25bf348b538, 0x59f111f1b605d019, 0x923f82a4af194f9b, 0xab1c5ed5da6d8118,
    0xd807aa98a3030242, 0x12835b0145706fbe, 0x243185be4ee4b28c, 0x550c7dc3d5ffb4e2,
    0x72be5d74f27b896f, 0x80deb1fe3b1696b1, 0x9bdc06a725c71235, 0xc19bf174cf692694,
    0xe49b69c19ef14ad2, 0xefbe4786384f25e3, 0x0fc19dc68b8cd5b5, 0x240ca1cc77ac9c65,
    0x2de92c6f592b0275, 0x4a7484aa6ea6e483, 0x5cb0a9dcbd41fbd4, 0x76f988da831153b5,
    0x983e5152ee66dfab, 0xa831c66d2db43210, 0xb00327c898fb213f, 0xbf597fc7beef0ee4,
    0xc6e00bf33da88fc2, 0xd5a79147930aa725, 0x06ca6351e003826f, 0x142929670a0e6e70,
    0x27b70a8546d22ffc, 0x2e1b21385c26c926, 0x4d2c6dfc5ac42aed, 0x53380d139d95b3df,
    0x650a73548baf63de, 0x766a0abb3c77b2a8, 0x81c2c92e47edaee6, 0x92722c851482353b,
    0xa2bfe8a14cf10364, 0xa81a664bbc423001, 0xc24b8b70d0f89791, 0xc76c51a30654be30,
    0xd192e819d6ef5218, 0xd69906245565a910, 0xf40e35855771202a, 0x106aa07032bbd1b8,
    0x19a4c116b8d2d0c8, 0x1e376c085141ab53, 0x2748774cdf8eeb99, 0x34b0bcb5e19b48a8,
    0x391c0cb3c5c95a63, 0x4ed8aa4ae3418acb, 0x5b9cca4f7763e373, 0x682e6ff3d6b2b8a3,
    0x748f82ee5defb2fc, 0x78a5636f43172f60, 0x84c87814a1f0ab72, 0x8cc702081a6439ec,
    0x90befffa23631e28, 0xa4506cebde82bde9, 0xbef9a3f7b2c67915, 0xc67178f2e372532b,
    0xca273eceea26619c, 0xd186b8c721c0c207, 0xeada7dd6cde0eb1e, 0xf57d4f7fee6ed178,
    0x06f067aa72176fba, 0x0a637dc5a2c898a6, 0x113f9804bef90dae, 0x1b710b35131c471b,
    0x28db77f523047d84, 0x32caab7b40c72493, 0x3c9ebe0a15c9bebc, 0x431d67c49c100d4c,
    0x4cc5d4becb3e42b6, 0x597f299cfc657e2a, 0x5fcb6fab3ad6faec, 0x6c44198c4a475817]

/-- The first 64 bits of the fractional parts of the square roots of the first eight primes. -/
def squareRoots : State UInt64 :=
  ⟨0x6a09e667f3bcc908, 0xbb67ae8584caa73b, 0x3c6ef372fe94f82b, 0xa54ff53a5f1d36f1,
    0x510e527fade682d1, 0x9b05688c2b3e6c1f, 0x1f83d9abfb41bd6b, 0x5be0cd19137e2179⟩

def laterSquareRoots : State UInt64 :=
  ⟨0xcbbb9d5dc1059ed8, 0x629a292a367cd507, 0x9159015a3070dd17, 0x152fecd8f70e5939,
    0x67332667ffc00b31, 0x8eb44a8768581511, 0xdb0c2e0d64f98fa7, 0x47b5481dbefa4fa4⟩

def rotate32 (x n : UInt32) : UInt32 := x >>> n ||| x <<< (32 - n)

def rotate64 (x n : UInt64) : UInt64 := x >>> n ||| x <<< (64 - n)

def words32 : Variant UInt32 where
  width := 4
  ofNat := Nat.toUInt32
  toNat := UInt32.toNat
  small0 x := rotate32 x 7 ^^^ rotate32 x 18 ^^^ x >>> 3
  small1 x := rotate32 x 17 ^^^ rotate32 x 19 ^^^ x >>> 10
  big0 x := rotate32 x 2 ^^^ rotate32 x 13 ^^^ rotate32 x 22
  big1 x := rotate32 x 6 ^^^ rotate32 x 11 ^^^ rotate32 x 25
  constants := (cubeRoots.take 64).map fun k : UInt64 => (k >>> 32).toUInt32

def words64 : Variant UInt64 where
  width := 8
  ofNat := Nat.toUInt64
  toNat := UInt64.toNat
  small0 x := rotate64 x 1 ^^^ rotate64 x 8 ^^^ x >>> 7
  small1 x := rotate64 x 19 ^^^ rotate64 x 61 ^^^ x >>> 6
  big0 x := rotate64 x 28 ^^^ rotate64 x 34 ^^^ rotate64 x 39
  big1 x := rotate64 x 14 ^^^ rotate64 x 18 ^^^ rotate64 x 41
  constants := cubeRoots

/-- The upper halves of a state of 64-bit words. -/
def upperHalves (s : State UInt64) : State UInt32 :=
  let up (x : UInt64) : UInt32 := (x >>> 32).toUInt32
  ⟨up s.a, up s.b, up s.c, up s.d, up s.e, up s.f, up s.g, up s.h⟩

def sha256 (message : Bytes) : Bytes := digest words32 (upperHalves squareRoots) message

def sha384 (message : Bytes) : Bytes := (digest words64 laterSquareRoots message).take 48

def sha512 (message : Bytes) : Bytes := digest words64 squareRoots message

@[simp] theorem length_sha256 (message : Bytes) : (sha256 message).length = 32 :=
  length_digest _ _ _

@[simp] theorem length_sha384 (message : Bytes) : (sha384 message).length = 48 := by
  simp [sha384, length_digest, words64]

@[simp] theorem length_sha512 (message : Bytes) : (sha512 message).length = 64 :=
  length_digest _ _ _

end Authenticode.Sha2
