import Flowgraph.Json.Doc
/-!
# The grammar of JSON

What the standard admits, production by production, with the tree that each text spells. Nothing is
said here of how a text is read.
-/
namespace Flowgraph.Json.Grammar

def Blank (cs : List Char) : Prop := ∀ c ∈ cs, c = ' ' ∨ c = '\t' ∨ c = '\n' ∨ c = '\r'

theorem blank_nil : Blank [] := List.forall_mem_nil _

/-! Numbers, of any size and precision -/

def Digits (cs : List Char) : Prop := ∀ c ∈ cs, c.isDigit = true

inductive Whole : List Char → Prop
  | zero : Whole ['0']
  | digits {c : Char} {cs : List Char} (digit : c.isDigit = true) (nonzero : c ≠ '0')
      (more : Digits cs) : Whole (c :: cs)

inductive Fraction : List Char → Prop
  | none : Fraction []
  | digits {c : Char} {cs : List Char} (digit : c.isDigit = true) (more : Digits cs) :
      Fraction ('.' :: c :: cs)

inductive Exponent : List Char → Prop
  | none : Exponent []
  | digits {mark c : Char} {sign cs : List Char} (marked : mark = 'e' ∨ mark = 'E')
      (signed : sign = [] ∨ sign = ['+'] ∨ sign = ['-']) (digit : c.isDigit = true)
      (more : Digits cs) : Exponent (mark :: (sign ++ c :: cs))

inductive Number : List Char → Prop
  | mk {sign whole fraction exponent : List Char} (signed : sign = [] ∨ sign = ['-'])
      (hwhole : Whole whole) (hfraction : Fraction fraction) (hexponent : Exponent exponent) :
      Number (sign ++ (whole ++ (fraction ++ exponent)))

/-! Strings -/

/-- One character of a string: itself, escaped by a letter, or given by a 16-bit unit. -/
inductive Letter : Piece → List Char → Prop
  | plain {c : Char} (quote : c ≠ '"') (backslash : c ≠ '\\') (control : 0x20 ≤ c.toNat) :
      Letter (.plain c) [c]
  | escape {c e : Char} (h : Lexer.simpleEscape? e = some c) : Letter (.plain c) ['\\', e]
  | unit {a b c d : Char} {p q r s : Nat} (ha : Lexer.hexDigit? a = some p)
      (hb : Lexer.hexDigit? b = some q) (hc : Lexer.hexDigit? c = some r)
      (hd : Lexer.hexDigit? d = some s) :
      Letter (.unit (16 * (16 * (16 * p + q) + r) + s)) ['\\', 'u', a, b, c, d]

inductive Letters : List Piece → List Char → Prop
  | nil : Letters [] []
  | cons {p : Piece} {ps : List Piece} {cs more : List Char} (first : Letter p cs)
      (rest : Letters ps more) : Letters (p :: ps) (cs ++ more)

/-- A string stands for a text, unless half a surrogate pair is left alone in it. -/
inductive Text : Option String → List Char → Prop
  | mk {ps : List Piece} {cs : List Char} (letters : Letters ps cs) :
      Text ((Piece.content? ps).map String.ofList) ('"' :: (cs ++ ['"']))

/-! Values -/

structure Entry where
  name : Name
  nameText : List Char
  value : Doc
  valueText : List Char

def Entry.text (e : Entry) : List Char := e.nameText ++ ':' :: e.valueText

inductive Label : Name → List Char → Prop
  | mk {n : Name} {before cs after : List Char} (hbefore : Blank before) (text : Text n cs)
      (hafter : Blank after) : Label n (before ++ (cs ++ after))

inductive Value : Doc → List Char → Prop
  | null : Value .null ['n', 'u', 'l', 'l']
  | yes : Value (.bool true) ['t', 'r', 'u', 'e']
  | no : Value (.bool false) ['f', 'a', 'l', 's', 'e']
  | number {l : String} (h : Number l.toList) : Value (.number l) l.toList
  | text {s : Option String} {cs : List Char} (h : Text s cs) : Value (.text s) cs
  | noItems {cs : List Char} (blank : Blank cs) : Value (.array [] .closed) ('[' :: (cs ++ [']']))
  | items {first : Doc × List Char} {more : List (Doc × List Char)}
      (values : ∀ p ∈ first :: more, Value p.1 p.2) :
      Value (.array ((first :: more).map (·.1)) .closed)
        ('[' :: (first.2 ++ (more.flatMap (fun p => ',' :: p.2) ++ [']'])))
  | noMembers {cs : List Char} (blank : Blank cs) :
      Value (.object [] .closed) ('{' :: (cs ++ ['}']))
  | members {first : Entry} {more : List Entry}
      (names : ∀ e ∈ first :: more, Label e.name e.nameText)
      (values : ∀ e ∈ first :: more, Value e.value e.valueText) :
      Value (.object ((first :: more).map fun e => (e.name, e.value)) .closed)
        ('{' :: (first.text ++ (more.flatMap (fun e => ',' :: e.text) ++ ['}'])))
  | padded {d : Doc} {before cs after : List Char} (hbefore : Blank before) (value : Value d cs)
      (hafter : Blank after) : Value d (before ++ (cs ++ after))

end Grammar

def Doc.SpeltAs (d : Doc) (text : String) : Prop := Grammar.Value d text.toList

def Doc.Grammatical (d : Doc) : Prop := ∃ cs, Grammar.Value d cs

end Flowgraph.Json
