import Flowgraph.Json.Token
/-!
# Documents

A JSON text as a tree, as far as it can be made out. A text that goes wrong somewhere still has a
tree for what stands before that place: every container that was not finished says so. So whoever
reads the tree meets the problems of a text in the order of the text.

`build` and `tokens` go back and forth between trees and tokens.
-/
namespace Flowgraph.Json

/-- How a container ends: with its own bracket, or before it got there. -/
inductive Ending where
  | closed
  | cut
  deriving DecidableEq, Repr

/-- The name of a member; `none` for one that spells no text. -/
abbrev Name := Option String

inductive Doc where
  | null
  | bool (b : Bool)
  | number (lexeme : String)
  | text (content : Option String)
  | array (items : List Doc) (ending : Ending)
  | object (members : List (Name × Doc)) (ending : Ending)
  /-- An object that has something else than a string where its first name had to stand. -/
  | misnamed (found : Token)
  /-- Where a value had to begin, none does. -/
  | missing
  deriving Repr, Inhabited

namespace Doc

/-- Whether a value came to its end. Its parts then did, too. -/
def isWhole : Doc → Bool
  | array _ .cut | object _ .cut | misnamed _ | missing => false
  | _ => true

def list (items : List Doc) : Doc := array items .closed

def record (members : List (String × Doc)) : Doc :=
  object (members.map fun (k, d) => (some k, d)) .closed

def string (s : String) : Doc := text (some s)

def int (n : Int) : Doc := number (toString n)

end Doc

/-- What a value is part of. Earlier parts are kept last first. -/
inductive Part where
  | item (before : List Doc)
  | member (before : List (Name × Doc)) (name : Name)

/-- Where the builder stands between two tokens, and the containers that are open around it. -/
inductive Builder where
  | value (path : List Part)
  | firstItem (path : List Part)
  | afterItem (path : List Part) (items : List Doc)
  | firstName (path : List Part)
  | name (path : List Part) (members : List (Name × Doc))
  | colon (path : List Part) (members : List (Name × Doc)) (name : Name)
  | afterMember (path : List Part) (members : List (Name × Doc))
  | done (d : Doc)

namespace Builder

def fill (d : Doc) : List Part → Builder
  | [] => done d
  | .item before :: path => afterItem path (d :: before)
  | .member before n :: path => afterMember path ((n, d) :: before)

def begin? (path : List Part) : Token → Option Builder
  | .null => some (fill .null path)
  | .bool b => some (fill (.bool b) path)
  | .number l => some (fill (.number l) path)
  | .text s => some (fill (.text s) path)
  | .openBracket => some (firstItem path)
  | .openBrace => some (firstName path)
  | _ => none

/-- One token, if it can stand here. -/
def step : Builder → Token → Option Builder
  | value path, t => begin? path t
  | firstItem path, .closeBracket => some (fill (.array [] .closed) path)
  | firstItem path, t => begin? (.item [] :: path) t
  | afterItem path items, .comma => some (value (.item items :: path))
  | afterItem path items, .closeBracket => some (fill (.array items.reverse .closed) path)
  | firstName path, .closeBrace => some (fill (.object [] .closed) path)
  | firstName path, .text n => some (colon path [] n)
  | name path members, .text n => some (colon path members n)
  | colon path members n, .colon => some (value (.member members n :: path))
  | afterMember path members, .comma => some (name path members)
  | afterMember path members, .closeBrace => some (fill (.object members.reverse .closed) path)
  | _, _ => none

/-- Gives up the containers around an unfinished value. -/
def cutOff (d : Doc) : List Part → Doc
  | [] => d
  | .item before :: path => cutOff (.array (d :: before).reverse .cut) path
  | .member before n :: path => cutOff (.object ((n, d) :: before).reverse .cut) path

/-- The tree of a text that does not go on. -/
def stop : Builder → Doc
  | value path => cutOff .missing path
  | firstItem path => cutOff (.array [] .cut) path
  | afterItem path items => cutOff (.array items.reverse .cut) path
  | firstName path => cutOff (.object [] .cut) path
  | name path members => cutOff (.object members.reverse .cut) path
  | colon path members n => cutOff (.object ((n, .missing) :: members).reverse .cut) path
  | afterMember path members => cutOff (.object members.reverse .cut) path
  | done d => d

/-- The tree of a text that goes on with a token that cannot stand here. -/
def refuse : Builder → Token → Doc
  | firstName path, t => cutOff (.misnamed t) path
  | b, _ => b.stop

/-- The tree of some tokens, and whether it took all of them. -/
def run : Builder → List Token → Doc × Bool
  | b, [] => (b.stop, true)
  | b, t :: ts =>
    match b.step t with
    | some b => run b ts
    | none => (b.refuse t, false)

end Builder

def Doc.build (ts : List Token) : Doc × Bool := Builder.run (.value []) ts

/-- The tree at the beginning of a text, and whether it is all of it. -/
def Doc.parse (text : String) : Doc × Bool :=
  let (ts, scanned) := Token.scan text
  let (d, taken) := Doc.build ts
  (d, scanned && taken)

namespace Doc

mutual

def tokens : Doc → List Token
  | null => [.null]
  | bool b => [.bool b]
  | number l => [.number l]
  | text s => [.text s]
  | array [] _ => [.openBracket, .closeBracket]
  | array (d :: ds) _ => .openBracket :: (tokens d ++ itemTokens ds)
  | object [] _ => [.openBrace, .closeBrace]
  | object ((n, d) :: ms) _ => .openBrace :: .text n :: .colon :: (tokens d ++ memberTokens ms)
  | misnamed t => [.openBrace, t]
  | missing => []

def itemTokens : List Doc → List Token
  | [] => [.closeBracket]
  | d :: ds => .comma :: (tokens d ++ itemTokens ds)

def memberTokens : List (Name × Doc) → List Token
  | [] => [.closeBrace]
  | (n, d) :: ms => .comma :: .text n :: .colon :: (tokens d ++ memberTokens ms)

end

end Doc
end Flowgraph.Json
