import Flowgraph.Json.Numeral
/-!
# Tokens

JSON text as a row of tokens. The lexer is a machine that takes one character at a time, so that what
it gives out for the beginning of a text does not depend on how the text goes on. A string whose
escapes leave half a surrogate pair alone is a token, but it stands for no text.
-/
namespace Flowgraph.Json

inductive Token where
  | openBrace | closeBrace | openBracket | closeBracket | colon | comma
  | null
  | bool (b : Bool)
  | number (lexeme : String)
  | text (content : Option String)
  deriving DecidableEq, Repr

/-- One character of a string as it is spelt: itself, or a 16-bit unit given by its number. -/
inductive Piece where
  | plain (c : Char)
  | unit (u : Nat)
  deriving DecidableEq, Repr

namespace Piece

def isHigh (u : Nat) : Bool := 0xD800 ≤ u && u < 0xDC00
def isLow (u : Nat) : Bool := 0xDC00 ≤ u && u < 0xE000

def joinPair (high low : Nat) : Char :=
  Char.ofNat (0x10000 + (high - 0xD800) * 0x400 + (low - 0xDC00))

/-- The text that the pieces spell, unless half a surrogate pair stands alone. -/
def content? : List Piece → Option (List Char)
  | [] => some []
  | .plain c :: ps => (content? ps).map (c :: ·)
  | .unit high :: .unit low :: ps =>
    if isHigh high then
      if isLow low then (content? ps).map (joinPair high low :: ·) else none
    else if isLow high then none
    else (content? (.unit low :: ps)).map (Char.ofNat high :: ·)
  | .unit u :: ps =>
    if isHigh u || isLow u then none else (content? ps).map (Char.ofNat u :: ·)

end Piece

/-- Where the lexer stands. What it is in the middle of is kept last first. -/
inductive Lexer where
  | between
  | word (next : Char) (rest : List Char) (meaning : Token)
  | text (pieces : List Piece)
  | escape (pieces : List Piece)
  | unit (pieces : List Piece) (missing : Nat) (value : Nat)
  | numeral (part : NumeralPart) (lexeme : List Char)
  | stuck
  deriving DecidableEq, Repr

namespace Lexer

def isBlank (c : Char) : Bool := c = ' ' || c = '\t' || c = '\n' || c = '\r'

def simpleEscape? : Char → Option Char
  | '"' => some '"'
  | '\\' => some '\\'
  | '/' => some '/'
  | 'b' => some '\x08'
  | 'f' => some '\x0c'
  | 'n' => some '\n'
  | 'r' => some '\r'
  | 't' => some '\t'
  | _ => none

def hexDigit? (c : Char) : Option Nat :=
  if c.isDigit then some (c.toNat - '0'.toNat)
  else if 'a' ≤ c && c ≤ 'f' then some (c.toNat - 'a'.toNat + 10)
  else if 'A' ≤ c && c ≤ 'F' then some (c.toNat - 'A'.toNat + 10)
  else none

def start (c : Char) : List Token × Lexer :=
  if isBlank c then ([], between)
  else match c with
  | '{' => ([.openBrace], between)
  | '}' => ([.closeBrace], between)
  | '[' => ([.openBracket], between)
  | ']' => ([.closeBracket], between)
  | ':' => ([.colon], between)
  | ',' => ([.comma], between)
  | '"' => ([], text [])
  | 'n' => ([], word 'u' ['l', 'l'] .null)
  | 't' => ([], word 'r' ['u', 'e'] (.bool true))
  | 'f' => ([], word 'a' ['l', 's', 'e'] (.bool false))
  | _ =>
    match NumeralPart.first c with
    | some p => ([], numeral p [c])
    | none => ([], stuck)

/-- One character: the tokens that it completes, and where the lexer stands after it. -/
def step : Lexer → Char → List Token × Lexer
  | between, c => start c
  | word d rest t, c =>
    if c = d then
      match rest with
      | [] => ([t], between)
      | e :: rest => ([], word e rest t)
    else ([], stuck)
  | text ps, c =>
    if c = '"' then ([.text ((Piece.content? ps.reverse).map String.ofList)], between)
    else if c = '\\' then ([], escape ps)
    else if c.toNat < 0x20 then ([], stuck)
    else ([], text (.plain c :: ps))
  | escape ps, c =>
    if c = 'u' then ([], unit ps 4 0)
    else match simpleEscape? c with
      | some d => ([], text (.plain d :: ps))
      | none => ([], stuck)
  | unit ps missing value, c =>
    match hexDigit? c with
    | none => ([], stuck)
    | some d =>
      if missing ≤ 1 then ([], text (.unit (16 * value + d) :: ps))
      else ([], unit ps (missing - 1) (16 * value + d))
  | numeral p cs, c =>
    match p.next c with
    | some q => ([], numeral q (c :: cs))
    | none =>
      if p.mayEnd (some c) then
        (.number (String.ofList cs.reverse) :: (start c).1, (start c).2)
      else ([], stuck)
  | stuck, _ => ([], stuck)

/-- The end of the text: the tokens that it completes, and whether nothing is left unfinished. -/
def finish : Lexer → List Token × Bool
  | between => ([], true)
  | numeral p cs =>
    if p.mayEnd none then ([.number (String.ofList cs.reverse)], true) else ([], false)
  | _ => ([], false)

def scan : Lexer → List Char → List Token × Bool
  | l, [] => l.finish
  | l, c :: cs =>
    let (ts, next) := l.step c
    let (more, whole) := scan next cs
    (ts ++ more, whole)

end Lexer

def Token.scan (text : String) : List Token × Bool := Lexer.scan .between text.toList

end Flowgraph.Json
