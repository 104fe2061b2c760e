import Flowgraph.Json.Doc
/-!
# Printing

The compact spelling of a document: its tokens, one after another. In a string, only quotes,
backslashes and control characters are escaped. `Doc.pretty` lays a document out over several lines.
-/
namespace Flowgraph.Json

def hexPair (n : Nat) : List Char := [Nat.digitChar (n / 16), Nat.digitChar (n % 16)]

def escapeChar (c : Char) : List Char :=
  if c = '"' then ['\\', '"']
  else if c = '\\' then ['\\', '\\']
  else if c = '\x08' then ['\\', 'b']
  else if c = '\x0c' then ['\\', 'f']
  else if c = '\n' then ['\\', 'n']
  else if c = '\r' then ['\\', 'r']
  else if c = '\t' then ['\\', 't']
  else if c.toNat < 0x20 then ['\\', 'u', '0', '0'] ++ hexPair c.toNat
  else [c]

def quote (s : String) : List Char := '"' :: (s.toList.flatMap escapeChar ++ ['"'])

namespace Token

def spelling : Token → List Char
  | openBrace => ['{']
  | closeBrace => ['}']
  | openBracket => ['[']
  | closeBracket => [']']
  | colon => [':']
  | comma => [',']
  | null => ['n', 'u', 'l', 'l']
  | bool true => ['t', 'r', 'u', 'e']
  | bool false => ['f', 'a', 'l', 's', 'e']
  | number l => l.toList
  | text s => quote (s.getD "")

end Token

namespace Doc

def render (d : Doc) : String := String.ofList (d.tokens.flatMap Token.spelling)

def newLine (depth : Nat) : List Char := '\n' :: List.replicate (2 * depth) ' '

mutual

def lay (depth : Nat) : Doc → List Char
  | array [] _ => ['[', ']']
  | array (d :: ds) _ =>
    '[' :: (newLine (depth + 1) ++ lay (depth + 1) d ++ layItems depth ds)
  | object [] _ => ['{', '}']
  | object ((n, d) :: ms) _ =>
    '{' :: (newLine (depth + 1) ++ quote (n.getD "") ++ [':', ' '] ++ lay (depth + 1) d ++
      layMembers depth ms)
  | null => Token.null.spelling
  | bool b => (Token.bool b).spelling
  | number l => (Token.number l).spelling
  | text s => (Token.text s).spelling
  | misnamed t => Token.openBrace.spelling ++ t.spelling
  | missing => []

def layItems (depth : Nat) : List Doc → List Char
  | [] => newLine depth ++ [']']
  | d :: ds => ',' :: (newLine (depth + 1) ++ lay (depth + 1) d ++ layItems depth ds)

def layMembers (depth : Nat) : List (Name × Doc) → List Char
  | [] => newLine depth ++ ['}']
  | (n, d) :: ms =>
    ',' :: (newLine (depth + 1) ++ quote (n.getD "") ++ [':', ' '] ++ lay (depth + 1) d ++
      layMembers depth ms)

end

def pretty (d : Doc) : String := String.ofList (lay 0 d)

end Doc
end Flowgraph.Json
