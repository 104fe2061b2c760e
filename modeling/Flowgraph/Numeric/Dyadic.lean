/-!
# Dyadic numbers

Numbers of the form `mantissa * 2 ^ exponent`, and rounding to 53 bits: the nearest dyadic number of
that precision, and of two equally near ones the one with the even mantissa. All of it is integer
arithmetic.
-/
namespace Flowgraph

structure Dyadic where
  mantissa : Nat
  exponent : Int
  deriving DecidableEq, Repr

namespace Dyadic

/-- The nearest integer to a quotient. A half goes to the even neighbour. -/
def roundHalfEven (num den : Nat) : Nat :=
  let q := num / den
  let r := num % den
  if 2 * r < den then q
  else if den < 2 * r then q + 1
  else q + q % 2

def bitLength (n : Nat) : Nat := if n = 0 then 0 else n.log2 + 1

def precision : Nat := 53

/-- No rounded number is finer than this power of two. -/
def leastExponent : Int := -1074

def greatestExponent : Int := 971

/-- The quotient `num / den`, counted in units of `2 ^ e`. -/
def inUnits (num den : Nat) (e : Int) : Nat × Nat :=
  (num * Nat.pow 2 (-e).toNat, den * Nat.pow 2 e.toNat)

/-- The unit in which `num / den` has 53 digits before the point, or the least one. -/
def unitExponent (num den : Nat) : Int :=
  let e : Int := (bitLength num : Int) - bitLength den - precision
  let (n, d) := inUnits num den e
  max leastExponent (if n / d < Nat.pow 2 precision then e else e + 1)

def round (num den : Nat) : Dyadic :=
  let e := unitExponent num den
  let (n, d) := inUnits num den e
  let m := roundHalfEven n d
  if m = Nat.pow 2 precision then ⟨Nat.pow 2 (precision - 1), e + 1⟩ else ⟨m, e⟩

def ofNat (n : Nat) : Dyadic := round n 1

def ratio (d : Dyadic) : Nat × Nat :=
  (d.mantissa * Nat.pow 2 d.exponent.toNat, Nat.pow 2 (-d.exponent).toNat)

def mul (a b : Dyadic) : Dyadic := round (a.ratio.1 * b.ratio.1) (a.ratio.2 * b.ratio.2)

def div (a b : Dyadic) : Dyadic := round (a.ratio.1 * b.ratio.2) (a.ratio.2 * b.ratio.1)

def isFinite (d : Dyadic) : Bool := d.exponent ≤ greatestExponent

def exceeds (d : Dyadic) (n : Nat) : Bool := n * d.ratio.2 < d.ratio.1

end Dyadic
end Flowgraph
