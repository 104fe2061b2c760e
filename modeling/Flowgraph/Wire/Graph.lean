import Flowgraph.Graph
import Flowgraph.Json.Record
/-!
# Graphs on the wire

Graphs are read in the present vocabulary of the editor and in its older one, and written in the
present one. What a node carries is brought into shape as it is read: an empty action is none, an
empty predicate is the usual question, and a count is brought into range.
-/
namespace Flowgraph

open Json

/-- What a node carries besides its tag. Each kind of node uses one part of it. -/
structure Payload where
  actionKind : Option String := none
  predicateId : Option String := none
  iterations : Option Int := none
  deriving DecidableEq

namespace Payload

def count : Codec Int :=
  .integer "i64"
    (fun n => if -9223372036854775808 ≤ n ∧ n < 9223372036854775808 then some n else none) id

def fields : Fields [Option String, Option String, Option Int] :=
  .cons (.optional "actionKind" .text ["action"]) <|
  .cons (.optional "predicateId" .text ["condition"]) <|
  .cons (.optional "iterations" count ["loopCount"]) .nil

def codec : Codec Payload :=
  (fields.codec "RawPayload").map (fun (a, p, n, ()) => ⟨a, p, n⟩)
    (fun p => (p.actionKind, p.predicateId, p.iterations, ()))

end Payload

namespace Kind

def given (w : Option String) : Option String := w.filter (!·.isEmpty)

def ofPayload (p : Payload) : Tag → Kind
  | .entry => entry
  | .action => action ((given p.actionKind).map Key.ofWord)
  | .condition => condition (((given p.predicateId).map Key.ofWord).getD (.known .default))
  | .loop => loop (.clamp (p.iterations.getD 1))
  | .exit => exit

def payload? : Kind → Option Payload
  | entry => none
  | action a => some { actionKind := a.map Key.word }
  | condition p => some { predicateId := some p.word }
  | loop r => some { iterations := some r.count }
  | exit => none

end Kind

namespace Node

def fields : Fields [String, Tag, String, Option Payload] :=
  .cons (.required "id" .text) <|
  .cons (.required "kind" .word ["type"]) <|
  .cons (.defaulted "label" .text "") <|
  .cons (.optional "payload" Payload.codec ["data"]) .nil

def codec : Codec Node :=
  (fields.codec "RawNode").map
    (fun (id, tag, label, payload, ()) => ⟨id, .ofPayload (payload.getD {}) tag, label⟩)
    (fun n => (n.id, n.tag, n.label, n.kind.payload?, ()))

end Node

namespace Edge

/-- The side that an edge is marked for. Older editors gave it in the label. -/
def branchOf (branch label : Option String) : Option Bool :=
  (branch.bind Vocabulary.ofName?).or (label.bind Vocabulary.ofName?)

def fields : Fields [String, String, String, Option String, Option String] :=
  .cons (.defaulted "id" .text "") <|
  .cons (.required "source" .text) <|
  .cons (.required "target" .text) <|
  .cons (.optional "branch" .text ["sourceHandle"]) <|
  .cons (Field.optional "label" .text).readOnly .nil

def codec : Codec Edge :=
  (fields.codec "RawEdge").map
    (fun (id, source, target, branch, label, ()) => ⟨id, source, target, branchOf branch label⟩)
    (fun e => (e.id, e.source, e.target, e.branch.map Vocabulary.name, none, ()))

end Edge

namespace Graph

def fields : Fields [List Node, List Edge] :=
  .cons (.required "nodes" Node.codec.list) <|
  .cons (.defaulted "edges" Edge.codec.list []) .nil

def codec : Codec Graph :=
  (fields.codec "Graph").map (fun (nodes, edges, ()) => ⟨nodes, edges⟩)
    (fun g => (g.nodes, g.edges, ()))

end Graph
end Flowgraph
