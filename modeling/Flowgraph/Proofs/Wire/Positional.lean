import Flowgraph.Proofs.Json.Positional
import Flowgraph.Wire.Diagnostics
import Flowgraph.Wire.Graph
import Flowgraph.Wire.Run
/-!
# Records of the wire, by position

Every record of the wire can be given as an array of its values, and it is then read as if they stood
under their present names. Older names have no position of their own.
-/
namespace Flowgraph

open Json

/-- The names of every record in their order, and the position of the last one that is required. -/
structure ByPosition : Prop where
  node : Node.codec.TakesItems ["id", "kind", "label", "payload"] 2
  payload : Payload.codec.TakesItems ["actionKind", "predicateId", "iterations"] 0
  edge : Edge.codec.TakesItems ["id", "source", "target", "branch", "label"] 3
  graph : Graph.codec.TakesItems ["nodes", "edges"] 1
  position : Position.codec.TakesItems ["x", "y"] 2
  cell : Cell.codec.TakesItems ["kind", "x", "y"] 3
  character : Character.codec.TakesItems ["position", "direction"] 2
  level : Level.codec.TakesItems
    ["id", "name", "description", "grid", "startPosition", "startDirection", "goalPosition",
      "maxSteps", "minSteps", "difficulty", "hints", "requiredActions"] 8
  world : World.codec.TakesItems
    ["character", "grid", "stepCount", "isComplete", "isFailed", "failureReason", "lastAction"] 5
  outcome : Outcome.codec.TakesItems ["success", "stepCount", "message", "finalState"] 3
  diagnostic : Diagnostic.codec.TakesItems
    ["code", "severity", "category", "message", "nodeId", "edgeId"] 4
  diagnostics : Diagnostics.codec.TakesItems
    ["errors", "warnings", "totalErrors", "totalWarnings"] 4
  verdict : Verdict.codec.TakesItems ["valid", "errors"] 2
  config : Config.codec.TakesItems ["maxExecutionSteps"] 0

/-- Decoding an array and decoding the object with the same values come to the same, whatever the
values are and whichever form their own parts have. -/
theorem read_by_position : ByPosition where
  node := (Fields.codec_takesItems (by decide) "RawNode").map _ _
  payload := (Fields.codec_takesItems (by decide) "RawPayload").map _ _
  edge := (Fields.codec_takesItems (by decide) "RawEdge").map _ _
  graph := (Fields.codec_takesItems (by decide) "Graph").map _ _
  position := (Fields.codec_takesItems (by decide) "Position").map _ _
  cell := (Fields.codec_takesItems (by decide) "Cell").map _ _
  character := (Fields.codec_takesItems (by decide) "Character").map _ _
  level := (Fields.codec_takesItems (by decide) "PuzzleLevel").map _ _
  world := (Fields.codec_takesItems (by decide) "WorldState").map _ _
  outcome := (Fields.codec_takesItems (by decide) "ExecutionResult").map _ _
  diagnostic := (Fields.codec_takesItems (by decide) "Diagnostic").map _ _
  diagnostics := (Fields.codec_takesItems (by decide) "Diagnostics").map _ _
  verdict := (Fields.codec_takesItems (by decide) "ValidationResult").map _ _
  config := (Fields.codec_takesItems (by decide) "EngineConfig").map _ _

/-- A graph of one loop, an array down to its payload, and of one edge, an object. -/
def loopItems : List Doc :=
  [.list [.list [.string "a", .record [("loop", .null)], .string "", .list [.null, .null, .int 3]]],
    .list [.record [("target", .string "b"), ("source", .string "a")]]]

def lavaItems : List Doc := [.string "a", .string "lava"]

theorem loopItems_writable : ∀ d ∈ loopItems, d.Writable := by
  have kind : (Doc.record [("loop", .null)]).Writable := .record (by simp [Doc.Writable.null])
  have payload : (Doc.list [.null, .null, .int 3]).Writable :=
    .list (by simp [Doc.Writable.null, Doc.Writable.int])
  have node : (Doc.list [.string "a", .record [("loop", .null)], .string "",
      .list [.null, .null, .int 3]]).Writable :=
    .list (by simp [Doc.Writable.string, kind, payload])
  have edge : (Doc.record [("target", .string "b"), ("source", .string "a")]).Writable :=
    .record (by simp [Doc.Writable.string])
  exact List.forall_mem_cons.mpr ⟨.list (by simp [node]), by simp [Doc.Writable.list, edge]⟩

theorem lavaItems_writable : ∀ d ∈ lavaItems, d.Writable := by
  simp [lavaItems, Doc.Writable.string]

theorem items_read :
    (Graph.codec.parse (Doc.list loopItems).render =
        Graph.codec.parse (Doc.record (["nodes", "edges"].zip loopItems)).render ∧
      Graph.codec.parse (Doc.list loopItems).render =
        .ok ⟨[⟨"a", .loop (.clamp 3), ""⟩], [⟨"", "a", "b", none⟩]⟩) ∧
    (Node.codec.parse (Doc.list lavaItems).render =
        Node.codec.parse (Doc.record (["id", "kind", "label", "payload"].zip lavaItems)).render ∧
      Node.codec.parse (Doc.list lavaItems).render =
        .error (.unknownVariant "lava"
          ["entry", "start", "action", "condition", "loop", "end", "exit"])) := by
  have list {ds : List Doc} (h : ∀ d ∈ ds, d.Writable) :
      (Doc.list ds).SpeltAs (Doc.list ds).render := Doc.speltAs_render (.list h)
  have record {ds : List Doc} (h : ∀ d ∈ ds, d.Writable) (names : List String) :
      (Doc.record (names.zip ds)).SpeltAs (Doc.record (names.zip ds)).render :=
    Doc.speltAs_render (.record fun m hm => h m.2 (List.of_mem_zip hm).2)
  have hloop := list loopItems_writable
  have hlava := list lavaItems_writable
  refine ⟨⟨?_, ?_⟩, ?_, ?_⟩
  · exact read_by_position.graph loopItems _ _ (by decide) (by decide) hloop
      (record loopItems_writable _)
  · rw [Codec.parse_of_speltAs hloop]
    rfl
  · exact read_by_position.node lavaItems _ _ (by decide) (by decide) hlava
      (record lavaItems_writable _)
  · rw [Codec.parse_of_speltAs hlava]
    rfl

end Flowgraph
