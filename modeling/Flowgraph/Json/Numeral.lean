import Flowgraph.Numeric.Dyadic
/-!
# Numerals

The numerals of JSON: how they are spelt, one character at a time, and what they stand for. A numeral
with neither fraction nor exponent is an integer when it fits in 64 bits, and every other numeral is
a binary approximation. The approximation is made in few steps, each of them rounded, so it may miss
the nearest 53-bit number by a little; one that leaves the range stands for nothing.
-/
namespace Flowgraph.Json

inductive NumeralPart where
  | sign | zero | whole | point | fraction | mark | markSign | exponent
  deriving DecidableEq, Repr

namespace NumeralPart

def first (c : Char) : Option NumeralPart :=
  if c = '-' then some .sign
  else if c = '0' then some .zero
  else if c.isDigit then some .whole
  else none

/-- What a further character makes of the spelling, if it can be part of it. -/
def next (p : NumeralPart) (c : Char) : Option NumeralPart :=
  let marked := if c = 'e' || c = 'E' then some mark else none
  match p with
  | sign => if c = '0' then some zero else if c.isDigit then some whole else none
  | zero => if c = '.' then some point else marked
  | whole => if c.isDigit then some whole else if c = '.' then some point else marked
  | point => if c.isDigit then some fraction else none
  | fraction => if c.isDigit then some fraction else marked
  | mark =>
    if c.isDigit then some exponent
    else if c = '+' || c = '-' then some markSign
    else none
  | markSign => if c.isDigit then some exponent else none
  | exponent => if c.isDigit then some exponent else none

/-- Whether the spelling may end here, before a character that does not continue it. A leading zero
stands alone. -/
def mayEnd (p : NumeralPart) (following : Option Char) : Bool :=
  match p with
  | zero => !following.any Char.isDigit
  | whole | fraction | exponent => true
  | _ => false

end NumeralPart

/-- A binary approximation with its sign, which zero has too. -/
structure Approx where
  negative : Bool
  magnitude : Dyadic
  deriving DecidableEq, Repr

inductive Number where
  | integer (n : Int)
  | approx (a : Approx)
  deriving DecidableEq, Repr

structure Numeral where
  negative : Bool
  whole : List Char
  fraction : List Char
  exponent : Option Int
  deriving DecidableEq, Repr

namespace Numeral

def digitsValue (ds : List Char) : Nat := Nat.ofDigitChars 10 ds 0

def exponentValue (cs : List Char) : Int :=
  match cs with
  | '-' :: ds => -(digitsValue ds)
  | '+' :: ds => digitsValue ds
  | ds => digitsValue ds

def ofLexeme (lexeme : List Char) : Numeral :=
  let negative := lexeme.head? = some '-'
  let cs := if negative then lexeme.tail else lexeme
  let rest := cs.dropWhile Char.isDigit
  let tail := if rest.head? = some '.' then rest.tail else []
  let fraction := tail.takeWhile Char.isDigit
  let marked := (rest.dropWhile fun c => c ≠ 'e' && c ≠ 'E').tail
  { negative := negative
    whole := cs.takeWhile Char.isDigit
    fraction := fraction
    exponent := if marked.isEmpty then none else some (exponentValue marked) }

def significandBound : Nat := 18446744073709551616

/-- The leading digits that fit in 64 bits, as a number, and the digits that do not. -/
def leading (acc : Nat) : List Char → Nat × List Char
  | [] => (acc, [])
  | c :: cs =>
    let acc' := 10 * acc + digitsValue [c]
    if acc' < significandBound then leading acc' cs else (acc, c :: cs)

/-- The significand and the power of ten of a numeral. Digits that do not fit are dropped; those
before the point still count for the power. -/
def significand (n : Numeral) : Nat × Int :=
  let (whole, dropped) := leading 0 n.whole
  let (all, unused) := leading whole n.fraction
  (all, dropped.length - (n.fraction.length - unused.length : Nat) + n.exponent.getD 0)

def powerOfTen (k : Nat) : Dyadic := .round (Nat.pow 10 k) 1

def stepLimit : Nat := 308

/-- Brings a power of ten to bear on a number. -/
def scale (f : Dyadic) (e : Int) : Option Dyadic :=
  if e.natAbs ≤ stepLimit then
    if 0 ≤ e then
      let g := f.mul (powerOfTen e.natAbs)
      if g.isFinite then some g else none
    else some (f.div (powerOfTen e.natAbs))
  else if f.mantissa = 0 then some f
  else if 0 ≤ e then none
  else scale (f.div (powerOfTen stepLimit)) (e + stepLimit)
termination_by e.natAbs
decreasing_by simp only [stepLimit] at *; omega

def value? (n : Numeral) : Option Number :=
  let magnitude := digitsValue n.whole
  let isInteger := n.fraction.isEmpty && n.exponent.isNone
  if isInteger && !n.negative && magnitude < significandBound then
    some (.integer magnitude)
  else if isInteger && n.negative && 0 < magnitude && magnitude ≤ significandBound / 2 then
    some (.integer (-magnitude))
  else
    let (digits, e) := n.significand
    (scale (.ofNat digits) e).map fun f => .approx ⟨n.negative, f⟩

end Numeral
end Flowgraph.Json
