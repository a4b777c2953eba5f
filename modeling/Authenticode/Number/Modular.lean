/-!
# Arithmetic modulo a number

Powers by repeated squaring, and inverses by the extended Euclidean algorithm.
-/
namespace Authenticode.Modular

def mulPow (m base exponent acc : Nat) : Nat :=
  if exponent = 0 then acc % m
  else
    mulPow m (base * base % m) (exponent / 2) (if exponent % 2 = 1 then acc * base % m else acc)
termination_by exponent
decreasing_by omega

def pow (m base exponent : Nat) : Nat := mulPow m (base % m) exponent 1

/-- The coefficient of `a` in the Euclidean combination of `a` with a modulus, given two
consecutive remainders and their coefficients. -/
def bezout (r s : Nat) (x y : Int) : Int :=
  if s = 0 then x else bezout s (r % s) y (x - (r / s : Nat) * y)
termination_by s
decreasing_by exact Nat.mod_lt _ (by omega)

/-- The inverse of `a` modulo `m`, if `a` is coprime to `m`. -/
def inverse (m a : Nat) : Nat := (bezout (a % m) m 1 0 % m).toNat

def sub (m a b : Nat) : Nat := (a + m - b % m) % m

end Authenticode.Modular
