import Flowgraph.Json.Doc
import Flowgraph.Numeric.Shortest
import Flowgraph.Text.Quoted
/-!
# Faults

Why a document is not what was expected. A text that is no JSON is malformed; all other faults are
about its content.
-/
namespace Flowgraph.Json

inductive Seen where
  | null
  | boolean (b : Bool)
  | integer (n : Int)
  | approx (a : Approx)
  | text (s : String)
  | sequence
  | map
  deriving DecidableEq, Repr

inductive Fault where
  | malformed
  /-- An object stands for a word, and its name is no string. No text goes on from there to JSON, so the
  fault is told as one of the grammar; it is a fault of its own because it keeps what was seen. -/
  | misnamed (seen : Seen)
  | missingField (field : String)
  | duplicateField (field : String)
  | unknownVariant (word : String) (known : List String)
  | invalidType (seen : Seen) (expected : String)
  | invalidValue (seen : Seen) (expected : String)
  | invalidLength (length : Nat) (expected : String)
  deriving DecidableEq, Repr

namespace Approx

/-- Numbers from 10⁻⁵ to 10¹⁶ are written without an exponent. -/
def isPlain (scientific : Int) : Bool := -5 ≤ scientific && scientific ≤ 15

def exponentText (e : Int) : List Char :=
  (if e < 0 then '-' else '+') :: Nat.toDigits 10 e.natAbs

/-- The digits laid out around the point, or before an exponent. -/
def layOut (digits : List Char) (scientific : Int) : List Char :=
  if isPlain scientific then
    if scientific < 0 then
      ['0', '.'] ++ List.replicate (-scientific - 1).toNat '0' ++ digits
    else
      let whole := scientific.toNat + 1
      let fraction := digits.drop whole
      digits.take whole ++ List.replicate (whole - digits.length) '0' ++ ['.'] ++
        (if fraction.isEmpty then ['0'] else fraction)
  else
    digits.take 1 ++ (if digits.length ≤ 1 then [] else '.' :: digits.drop 1) ++
      'e' :: exponentText scientific

def text (a : Approx) : String :=
  let body :=
    if a.magnitude.mantissa = 0 then ['0', '.', '0']
    else
      let d := a.magnitude.shortest
      let ds := Nat.toDigits 10 d.digits
      let significant := (ds.reverse.dropWhile (· = '0')).reverse
      layOut significant (d.exponent + ds.length - 1)
  String.ofList (if a.negative then '-' :: body else body)

end Approx

namespace Seen

def describe : Seen → String
  | null => "null"
  | boolean b => s!"boolean \x60{b}\x60"
  | integer n => s!"integer \x60{n}\x60"
  | approx a => s!"floating point \x60{a.text}\x60"
  | text s => s!"string {Text.quoted s}"
  | sequence => "sequence"
  | map => "map"

end Seen

namespace Fault

def ticked (word : String) : String := s!"\x60{word}\x60"

def alternatives : List String → String
  | [a] => ticked a
  | [a, b] => s!"{ticked a} or {ticked b}"
  | words => "one of " ++ ", ".intercalate (words.map ticked)

def message : Fault → String
  | malformed | misnamed _ => "malformed JSON"
  | missingField f => s!"missing field {ticked f}"
  | duplicateField f => s!"duplicate field {ticked f}"
  | unknownVariant w known => s!"unknown variant {ticked w}, expected {alternatives known}"
  | invalidType seen expected => s!"invalid type: {seen.describe}, expected {expected}"
  | invalidValue seen expected => s!"invalid value: {seen.describe}, expected {expected}"
  | invalidLength n expected => s!"invalid length {n}, expected {expected}"

end Fault

def seenNumber (lexeme : String) : Option Seen :=
  (Numeral.ofLexeme lexeme.toList).value?.map fun
    | .integer n => .integer n
    | .approx a => .approx a

/-- What begins with a token. A container is recognised by its opening bracket. -/
def Token.seen? : Token → Option Seen
  | .null => some .null
  | .bool b => some (.boolean b)
  | .number l => seenNumber l
  | .text s => s.map .text
  | .openBracket => some .sequence
  | .openBrace => some .map
  | _ => none

def Doc.first? : Doc → Option Token
  | .null => some .null
  | .bool b => some (.bool b)
  | .number l => some (.number l)
  | .text s => some (.text s)
  | .array _ _ => some .openBracket
  | .object _ _ | .misnamed _ => some .openBrace
  | .missing => none

def Doc.seen? (d : Doc) : Option Seen := d.first?.bind Token.seen?

/-- The fault of being something else than expected. -/
def Doc.mismatch (d : Doc) (expected : String) : Fault :=
  match d.seen? with
  | some s => .invalidType s expected
  | none => .malformed

end Flowgraph.Json
