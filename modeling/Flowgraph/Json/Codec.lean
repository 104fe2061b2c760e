import Flowgraph.Json.Fault
import Flowgraph.Json.Printer
import Flowgraph.Vocabulary
/-!
# Codecs

How values of a type are read from documents and written as documents. Reading meets the problems of
a document in order, and stops at the first.
-/
namespace Flowgraph.Json

structure Codec (α : Type) where
  read : Doc → Except Fault α
  write : α → Doc

namespace Codec
variable {α β : Type}

/-- Reads a text. What comes after the value is looked at last. -/
def parse (c : Codec α) (text : String) : Except Fault α :=
  let (d, whole) := Doc.parse text
  match c.read d with
  | .error f => .error f
  | .ok a => if whole then .ok a else .error .malformed

def print (c : Codec α) (a : α) : String := (c.write a).render

def map (c : Codec α) (make : α → β) (of : β → α) : Codec β where
  read d := (c.read d).map make
  write b := c.write (of b)

def text : Codec String where
  read
    | .text (some s) => .ok s
    | d => .error (d.mismatch "a string")
  write := .string

def bool : Codec Bool where
  read
    | .bool b => .ok b
    | d => .error (d.mismatch "a boolean")
  write := .bool

def integer (expected : String) (ofInt? : Int → Option α) (toInt : α → Int) : Codec α where
  read
    | .number l =>
      match seenNumber l with
      | some (.integer n) =>
        match ofInt? n with
        | some a => .ok a
        | none => .error (.invalidValue (.integer n) expected)
      | _ => .error ((Doc.number l).mismatch expected)
    | d => .error (d.mismatch expected)
  write a := .int (toInt a)

def natBelow (expected : String) (bound : Nat) : Codec Nat :=
  integer expected (fun n => if 0 ≤ n ∧ n < bound then some n.toNat else none) (fun n => n)

def readItems (c : Codec α) : List Doc → Except Fault (List α)
  | [] => .ok []
  | d :: ds =>
    match c.read d with
    | .error f => .error f
    | .ok a => (readItems c ds).map (a :: ·)

def list (c : Codec α) : Codec (List α) where
  read
    | .array ds ending =>
      match readItems c ds with
      | .error f => .error f
      | .ok as => if ending = .closed then .ok as else .error .malformed
    | d => .error (d.mismatch "a sequence")
  write as := .list (as.map c.write)

def nullable (c : Codec α) : Codec (Option α) where
  read
    | .null => .ok none
    | d => (c.read d).map some
  write
    | none => .null
    | some a => c.write a

section
variable [Vocabulary α]

def ofWord (w : String) : Except Fault α :=
  match (Vocabulary.ofName? w : Option α) with
  | some a => .ok a
  | none => .error (.unknownVariant w ((Vocabulary.words : List (String × α)).map Prod.fst))

/-- A word of a vocabulary: a string, or the name of the only member of an object, whose value has to
be null. -/
def word : Codec α where
  read
    | .text (some w) => ofWord w
    | .object ((some w, d) :: rest) ending =>
      match (ofWord w : Except Fault α) with
      | .error f => .error f
      | .ok a =>
        match d with
        | .null => if rest.isEmpty && ending = .closed then .ok a else .error .malformed
        | d => .error (d.mismatch "unit")
    | .misnamed t =>
      match t.seen? with
      | some s => .error (.misnamed s)
      | none => .error .malformed
    | _ => .error .malformed
  write a := .string (Vocabulary.name a)

def key : Codec (Key α) := text.map Key.ofWord Key.word

end
end Codec
end Flowgraph.Json
