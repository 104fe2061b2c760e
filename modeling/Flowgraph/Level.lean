import Flowgraph.Action
import Flowgraph.Grid
/-!
# Levels

A puzzle: a grid, where the character starts and where it has to go, and how many actions it may
spend on the way.
-/
namespace Flowgraph

inductive Difficulty where
  | easy | medium | hard
  deriving DecidableEq, Repr

instance : Vocabulary Difficulty where
  words := [("easy", .easy), ("medium", .medium), ("hard", .hard)]
  name
    | .easy => "easy"
    | .medium => "medium"
    | .hard => "hard"
  lookup_name d := by cases d <;> rfl

structure Level where
  id : String
  name : String
  description : String := ""
  grid : Grid
  startPosition : Position
  startDirection : Direction
  goalPosition : Position
  maxSteps : UInt32
  minSteps : Option UInt32 := none
  difficulty : Option Difficulty := none
  hints : Option (List String) := none
  requiredActions : Option (List String) := none
  deriving DecidableEq

namespace Level

/-- A level with no more than a run needs; it is called by its id. -/
def plain (id : String) (grid : Grid) (start : Position) (direction : Direction)
    (goal : Position) (maxSteps : UInt32) : Level where
  id := id
  name := id
  grid := grid
  startPosition := start
  startDirection := direction
  goalPosition := goal
  maxSteps := maxSteps

def withMinSteps (l : Level) (n : UInt32) : Level := { l with minSteps := some n }

def withRequiredActions (l : Level) (actions : List Action) : Level :=
  { l with requiredActions := some (actions.map Vocabulary.name) }

end Level
end Flowgraph
