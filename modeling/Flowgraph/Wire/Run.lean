import Flowgraph.Run
import Flowgraph.Wire.Level
/-!
# Runs on the wire

World states, configurations and verdicts. A report is only written.
-/
namespace Flowgraph

open Json

def Character.fields : Fields [Position, Direction] :=
  .cons (.required "position" Position.codec) <| .cons (.required "direction" .word) .nil

def Character.codec : Codec Character :=
  (Character.fields.codec "Character").map (fun (p, d, ()) => ⟨p, d⟩)
    (fun c => (c.position, c.direction, ()))

namespace World

def count : Codec Nat := .natBelow "u32" UInt32.size

def fields :
    Fields [Character, Grid, Nat, Bool, Bool, Option FailureReason, Option LastAction] :=
  .cons (.required "character" Character.codec) <|
  .cons (.required "grid" Grid.codec) <|
  .cons (.required "stepCount" count) <|
  .cons (.required "isComplete" .bool) <|
  .cons (.required "isFailed" .bool) <|
  .cons (.optional "failureReason" .word) <|
  .cons (.optional "lastAction" .word) .nil

def codec : Codec World :=
  (fields.codec "WorldState").map
    (fun (character, grid, steps, complete, failed, reason, last, ()) =>
      ⟨character, grid, steps, complete, failed, reason, last⟩)
    (fun w => (w.character, w.grid, w.stepCount, w.isComplete, w.isFailed, w.failureReason,
      w.lastAction, ()))

end World

namespace Outcome

def fields : Fields [Bool, Nat, String, Option World] :=
  .cons (.required "success" .bool) <|
  .cons (.required "stepCount" World.count) <|
  .cons (.required "message" .text) <|
  .cons (.optional "finalState" World.codec) .nil

def codec : Codec Outcome :=
  (fields.codec "ExecutionResult").map
    (fun (success, steps, message, final, ()) => ⟨success, steps, message, final⟩)
    (fun o => (o.success, o.stepCount, o.message, o.finalState, ()))

end Outcome

def Report.write (r : Report) : Doc :=
  .record
    [("result", Outcome.codec.write r.outcome),
      ("executionSteps", .int r.executionSteps),
      ("visited", .list (r.visited.map .string))]

namespace Config

def fields : Fields [UInt32] :=
  .cons (.defaulted "maxExecutionSteps" Level.count ({} : Config).maxExecutionSteps) .nil

def codec : Codec Config :=
  (fields.codec "EngineConfig").map (fun (n, ()) => ⟨n⟩) (fun c => (c.maxExecutionSteps, ()))

end Config
end Flowgraph
