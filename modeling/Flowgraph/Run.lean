import Flowgraph.Run.Walk
/-!
# Runs

The verdict of a walk, and the trace that it leaves for playback. The ceiling on how many nodes a run
may visit is independent of a level's budget, which counts actions only. A ceiling of zero would stop
every run before its first node, and is refused.
-/
namespace Flowgraph

structure Config where
  maxExecutionSteps : UInt32 := 100
  deriving DecidableEq

structure Engine where
  config : Config := {}
  pos : 0 < config.maxExecutionSteps := by decide
  deriving DecidableEq

namespace Engine

def ofConfig? (c : Config) : Option Engine :=
  if h : 0 < c.maxExecutionSteps then some ⟨c, h⟩ else none

def ceiling (e : Engine) : Nat := e.config.maxExecutionSteps.toNat

end Engine

structure Outcome where
  success : Bool
  stepCount : Nat
  message : String
  finalState : Option World := none
  deriving DecidableEq

def Outcome.failureReason (o : Outcome) : Option FailureReason :=
  o.finalState.bind (·.failureReason)

structure Report where
  outcome : Outcome
  executionSteps : Nat
  visited : List String
  deriving DecidableEq

def World.outcome (w : World) (level : Level) : Outcome where
  success := w.isComplete
  stepCount := w.stepCount
  message :=
    if w.isComplete then Message.success w.stepCount level
    else match w.failureReason with
      | some r => Message.failure r w.stepCount level
      | none => Message.didNotFinish
  finalState := some w

def Graph.run (g : Graph) (level : Level) (ceiling : Nat) : Report :=
  let course : Course := ⟨.ofGraph g, level⟩
  match course.index.entryNode? with
  | none => ⟨⟨false, 0, Message.noEntry, some level.start⟩, 0, []⟩
  | some entry =>
    let w := (course.proceed ceiling (some entry) { world := level.start }).callOff ceiling
    ⟨w.world.outcome level, w.steps, w.visited.toList⟩

namespace Engine

def run (e : Engine) (g : Graph) (level : Level) : Report := g.run level e.ceiling

def execute (e : Engine) (g : Graph) (level : Level) : Outcome := (e.run g level).outcome

end Engine
end Flowgraph
