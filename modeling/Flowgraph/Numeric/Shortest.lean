import Flowgraph.Numeric.Dyadic
/-!
# Shortest decimals

The fewest decimal digits that single a 53-bit number out from its neighbours, and of those the
nearest to it. A decimal reads back to the number when it lies between the two halfway points to the
neighbours; the halfway points themselves count when the mantissa is even.
-/
namespace Flowgraph

structure Decimal where
  digits : Nat
  exponent : Int
  deriving DecidableEq, Repr

namespace Dyadic

def decimalLength (n : Nat) : Nat := (Nat.toDigits 10 n).length

/-- The greatest power of ten that is not above a positive number. -/
def magnitude (d : Dyadic) : Int :=
  let (num, den) := d.ratio
  let k : Int := (decimalLength num : Int) - decimalLength den
  if den * Nat.pow 10 k.toNat ≤ num * Nat.pow 10 (-k).toNat then k else k - 1

/-- The halfway points to the neighbours, in quarters of the last place. Below a power of two the
neighbours are closer together. -/
def halfways (d : Dyadic) : Nat × Nat :=
  let atPower := d.mantissa = Nat.pow 2 (precision - 1) && leastExponent < d.exponent
  (4 * d.mantissa - (if atPower then 1 else 2), 4 * d.mantissa + 2)

/-- The decimal on the grid of `10 ^ exponent` that reads back to the number, if there is one. Of two
the nearer is taken, and of two equally near ones the even. -/
def onGrid? (d : Dyadic) (exponent : Int) : Option Decimal :=
  let e := d.exponent - 2
  let unit := Nat.pow 10 exponent.toNat * Nat.pow 2 (-e).toNat
  let quarter := Nat.pow 2 e.toNat * Nat.pow 10 (-exponent).toNat
  let value := 4 * d.mantissa * quarter
  let (low, high) := d.halfways
  let readsBack (c : Nat) : Bool :=
    if d.mantissa % 2 = 0 then low * quarter ≤ c * unit && c * unit ≤ high * quarter
    else low * quarter < c * unit && c * unit < high * quarter
  let below := value / unit
  let above := below + 1
  let nearest := roundHalfEven value unit
  if readsBack nearest then some ⟨nearest, exponent⟩
  else if readsBack below then some ⟨below, exponent⟩
  else if readsBack above then some ⟨above, exponent⟩
  else none

def mostDigits : Nat := 17

/-- The shortest decimal that reads back to a positive number. -/
def shortest (d : Dyadic) : Decimal :=
  let k := d.magnitude
  ((List.range mostDigits).findSome? fun (n : Nat) => d.onGrid? (k - n)).getD ⟨0, 0⟩

end Dyadic
end Flowgraph
