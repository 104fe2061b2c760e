import Flowgraph.Level
/-!
# Worlds

The simulated world of one run: the character, its own copy of the grid, and the verdict once there
is one. The first verdict sticks.
-/
namespace Flowgraph

structure Character where
  position : Position
  direction : Direction
  deriving DecidableEq

inductive FailureReason where
  | maxSteps
  | collision
  | outOfBounds
  | infiniteLoop
  deriving DecidableEq, Repr

instance : Vocabulary FailureReason where
  words := [("maxSteps", .maxSteps), ("collision", .collision), ("outOfBounds", .outOfBounds),
    ("infiniteLoop", .infiniteLoop)]
  name
    | .maxSteps => "maxSteps"
    | .collision => "collision"
    | .outOfBounds => "outOfBounds"
    | .infiniteLoop => "infiniteLoop"
  lookup_name r := by cases r <;> rfl

inductive LastAction where
  | move | moveBlocked | turnLeft | turnRight | wait
  deriving DecidableEq, Repr

instance : Vocabulary LastAction where
  words := [("move", .move), ("move (blocked)", .moveBlocked), ("turnLeft", .turnLeft),
    ("turnRight", .turnRight), ("wait", .wait)]
  name
    | .move => "move"
    | .moveBlocked => "move (blocked)"
    | .turnLeft => "turnLeft"
    | .turnRight => "turnRight"
    | .wait => "wait"
  lookup_name a := by cases a <;> rfl

structure World where
  character : Character
  grid : Grid
  stepCount : Nat := 0
  isComplete : Bool := false
  isFailed : Bool := false
  failureReason : Option FailureReason := none
  lastAction : Option LastAction := none
  deriving DecidableEq

def Level.start (l : Level) : World where
  character := ⟨l.startPosition, l.startDirection⟩
  grid := l.grid

namespace World
variable (w : World)

def isTerminal : Bool := w.isComplete || w.isFailed

/-- Ignored once the run has failed. -/
def markComplete : World := if w.isFailed then w else { w with isComplete := true }

/-- Ignored once the run has ended either way. -/
def markFailed (r : FailureReason) : World :=
  if w.isTerminal then w else { w with isFailed := true, failureReason := some r }

def ahead : Position := w.character.position.ahead w.character.direction

def moveTo (p : Position) : World := { w with character := { w.character with position := p } }

def face (d : Direction) : World := { w with character := { w.character with direction := d } }

/-- The answer to a question, on the world's own grid. Off the grid counts as a wall. -/
def answer (level : Level) : Question → Bool
  | .wallAhead => !w.grid.isOpen w.ahead
  | .canMove => w.grid.isOpen w.ahead
  | .atGoal => w.character.position = level.goalPosition
  | .notAtGoal => w.character.position ≠ level.goalPosition

/-- An unknown predicate is answered with yes. -/
def ask (level : Level) : Predicate → Bool
  | .known q => w.answer level q
  | .unknown _ _ => true

/-- Whatever an action does before its step is counted. -/
def perform : Action → World
  | .move =>
    match w.grid.look w.ahead with
    | .free => { w.moveTo w.ahead with lastAction := some .move }
    | .wall => { w.markFailed .collision with lastAction := some .moveBlocked }
    | .outOfBounds => { w.markFailed .outOfBounds with lastAction := some .moveBlocked }
  | .turnLeft => { w.face w.character.direction.turnLeft with lastAction := some .turnLeft }
  | .turnRight => { w.face w.character.direction.turnRight with lastAction := some .turnRight }
  | .wait => { w with lastAction := some .wait }

def countStep : World := { w with stepCount := w.stepCount + 1 }

/-- The goal first, then the action budget. -/
def settle (level : Level) : World :=
  if w.isFailed then w
  else if w.character.position = level.goalPosition then w.markComplete
  else if level.maxSteps.toNat ≤ w.stepCount then w.markFailed .maxSteps
  else w

/-- One action. It costs a step whatever comes of it; an unknown one does nothing else. -/
def act (level : Level) : ActionKey → World
  | .known a => ((w.perform a).countStep).settle level
  | .unknown _ _ => w.countStep.settle level

end World
end Flowgraph
