import Flowgraph.Diagnostic
import Flowgraph.Graph
import Flowgraph.Level
/-!
# Advice

What does not fit between a graph and the level that it is meant for. All of it is advice: every
diagnostic is a warning.
-/
namespace Flowgraph

inductive Advice where
  | requiredActionUnused (a : Action)
  | unknownRequiredAction (word : String)
  | startNotOpen
  | goalNotOpen
  deriving DecidableEq

namespace Advice

def code : Advice → Code
  | requiredActionUnused _ => ⟨500⟩
  | unknownRequiredAction _ => ⟨501⟩
  | startNotOpen => ⟨502⟩
  | goalNotOpen => ⟨503⟩

def positionText (what : String) (p : Position) : String :=
  s!"{what} position ({p.x.val}, {p.y.val}) is off the grid or on a wall"

def message (l : Level) : Advice → String
  | requiredActionUnused a => s!"Level \"{l.name}\" expects the '{Vocabulary.name a}' action"
  | unknownRequiredAction word => s!"Level \"{l.name}\" requires an {Action.unknownText word}"
  | startNotOpen => positionText "Start" l.startPosition
  | goalNotOpen => positionText "Goal" l.goalPosition

def diagnostic (l : Level) (a : Advice) : Diagnostic := .warning a.code (a.message l)

end Advice

def Graph.usedActions (g : Graph) : List Action :=
  g.nodes.filterMap fun n => n.action?.bind Key.value?

/-- A required word should name an action that is used. -/
def Advice.onRequired (used : List Action) (word : String) : List Advice :=
  match (Vocabulary.ofName? word : Option Action) with
  | none => [.unknownRequiredAction word]
  | some a => if a ∈ used then [] else [.requiredActionUnused a]

namespace Level
variable (l : Level)

def advice (g : Graph) : List Advice :=
  (l.requiredActions.getD []).flatMap (Advice.onRequired g.usedActions) ++
    (if l.grid.isOpen l.startPosition then [] else [.startNotOpen]) ++
    (if l.grid.isOpen l.goalPosition then [] else [.goalNotOpen])

def check (g : Graph) : Diagnostics := ({} : Diagnostics).pushAll ((l.advice g).map (·.diagnostic l))

end Level
end Flowgraph
