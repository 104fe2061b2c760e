import Flowgraph.Vocabulary
/-!
# Actions and predicates

What an action node can make the character do, and what a condition node can ask.
Both are carried as keys, so that a graph drawn with a newer palette still loads.
-/
namespace Flowgraph

inductive Action where
  | move | turnLeft | turnRight | wait
  deriving DecidableEq, Repr

def Action.all : List Action := [.move, .turnLeft, .turnRight, .wait]

instance : Vocabulary Action where
  words := [("move", .move), ("turnLeft", .turnLeft), ("turnRight", .turnRight), ("wait", .wait)]
  name
    | .move => "move"
    | .turnLeft => "turnLeft"
    | .turnRight => "turnRight"
    | .wait => "wait"
  lookup_name a := by cases a <;> rfl

abbrev ActionKey := Key Action

def Action.unknownText (word : String) : String := s!"unknown action kind '{word}'"

inductive Question where
  | wallAhead | canMove | atGoal | notAtGoal
  deriving DecidableEq, Repr

def Question.all : List Question := [.wallAhead, .canMove, .atGoal, .notAtGoal]

/-- What a condition node asks when none was picked. -/
def Question.default : Question := .canMove

instance : Vocabulary Question where
  words := [("wallAhead", .wallAhead), ("canMove", .canMove), ("atGoal", .atGoal),
    ("notAtGoal", .notAtGoal)]
  name
    | .wallAhead => "wallAhead"
    | .canMove => "canMove"
    | .atGoal => "atGoal"
    | .notAtGoal => "notAtGoal"
  lookup_name a := by cases a <;> rfl

abbrev Predicate := Key Question

end Flowgraph
