import Flowgraph.World
import Flowgraph.Numeric.Dyadic
/-!
# Messages

What the player is told when a run ends. A success is graded by how close it comes to the reference
solution, and failing that by how much of the budget it leaves.
-/
namespace Flowgraph

inductive Grade where
  | optimal | great | wellDone
  deriving DecidableEq, Repr

namespace Grade

def praise : Grade → String
  | optimal => " (Optimal solution!)"
  | great => " (Great job!)"
  | wellDone => " (Well done!)"

/-- Seven tenths, as near as 53 bits come. -/
def wellDoneShare : Dyadic := .round 7 10

def isWellUnder (steps budget : Nat) : Bool :=
  ((Dyadic.ofNat budget).mul wellDoneShare).exceeds steps

/-- A reference solution of no steps counts as none. -/
def reference? (level : Level) : Option Nat := (level.minSteps.map (·.toNat)).filter (0 < ·)

def ofRun (steps : Nat) (level : Level) : Option Grade :=
  if reference? level = some steps then some .optimal
  else if (reference? level).any fun m => steps ≤ min (m + 2) 4294967295 then some .great
  else if isWellUnder steps level.maxSteps.toNat then some .wellDone
  else none

end Grade

namespace Message

def noEntry : String := "No entry node found"

def didNotFinish : String :=
  "The algorithm did not finish: the graph ended before the goal was reached."

def success (steps : Nat) (level : Level) : String :=
  "Success! 🎉" ++ ((Grade.ofRun steps level).map Grade.praise).getD ""

def failure (reason : FailureReason) (steps : Nat) (level : Level) : String :=
  match reason with
  | .maxSteps => s!"Too many steps ({steps}/{level.maxSteps.toNat})"
  | .collision => "Hit a wall!"
  | .outOfBounds => "Walked off the map!"
  | .infiniteLoop => "Infinite loop detected. Check your algorithm."

end Message
end Flowgraph
