import Flowgraph.Vocabulary
/-!
# Diagnostics

Findings about a graph, or about a graph and its level. Errors and warnings are kept apart, each in
the order in which it was found, and counted. Only errors make a graph invalid.
-/
namespace Flowgraph

inductive Severity where
  | error | warning
  deriving DecidableEq, Repr

instance : Vocabulary Severity where
  words := [("error", .error), ("warning", .warning)]
  name
    | .error => "error"
    | .warning => "warning"
  lookup_name s := by cases s <;> rfl

inductive Category where
  | structural | edge | connectivity | payload | level
  deriving DecidableEq, Repr

instance : Vocabulary Category where
  words := [("structure", .structural), ("edge", .edge), ("connectivity", .connectivity),
    ("payload", .payload), ("level", .level)]
  name
    | .structural => "structure"
    | .edge => "edge"
    | .connectivity => "connectivity"
    | .payload => "payload"
    | .level => "level"
  lookup_name c := by cases c <;> rfl

structure Code where
  number : UInt16
  deriving DecidableEq

namespace Code

/-- Each hundred is a category; whatever is left belongs to the level. -/
def category (c : Code) : Category :=
  match c.number.toNat / 100 with
  | 1 => .structural
  | 2 => .edge
  | 3 => .connectivity
  | 4 => .payload
  | _ => .level

def text (c : Code) : String := s!"E{c.number.toNat}"

end Code

structure Diagnostic where
  code : Code
  severity : Severity
  category : Category
  message : String
  nodeId : Option String := none
  edgeId : Option String := none
  deriving DecidableEq

namespace Diagnostic

def error (code : Code) (message : String) : Diagnostic where
  code := code
  severity := .error
  category := code.category
  message := message

def warning (code : Code) (message : String) : Diagnostic where
  code := code
  severity := .warning
  category := code.category
  message := message

def atNode (d : Diagnostic) (id : String) : Diagnostic := { d with nodeId := some id }

def atEdge (d : Diagnostic) (id : String) : Diagnostic := { d with edgeId := some id }

def text (d : Diagnostic) : String := s!"{d.code.text} [{Vocabulary.name d.category}] {d.message}"

end Diagnostic

structure Diagnostics where
  errors : List Diagnostic := []
  warnings : List Diagnostic := []
  totalErrors : Nat := 0
  totalWarnings : Nat := 0
  deriving DecidableEq

structure Verdict where
  valid : Bool
  errors : List String
  deriving DecidableEq

namespace Diagnostics
variable (ds : Diagnostics)

def hasErrors : Bool := 0 < ds.totalErrors

def push (d : Diagnostic) : Diagnostics :=
  match d.severity with
  | .error => { ds with errors := ds.errors ++ [d], totalErrors := ds.totalErrors + 1 }
  | .warning => { ds with warnings := ds.warnings ++ [d], totalWarnings := ds.totalWarnings + 1 }

def pushAll (found : List Diagnostic) : Diagnostics := found.foldl push ds

def hasCode (c : Code) : Bool := (ds.errors ++ ds.warnings).any (·.code = c)

def lines : List String := (ds.errors ++ ds.warnings).map Diagnostic.text

def verdict : Verdict := ⟨!ds.hasErrors, ds.errors.map (·.message)⟩

end Diagnostics
end Flowgraph
