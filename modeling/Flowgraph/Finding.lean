import Flowgraph.Diagnostic
import Flowgraph.Graph
/-!
# Findings

What can be wrong with a graph. A finding knows its cause; the code, the wording and the place that an
editor highlights follow from it.
-/
namespace Flowgraph

inductive Finding where
  | noEntry
  | multipleEntries (count : Nat)
  | noExit
  | unknownSource (e : Edge)
  | unknownTarget (e : Edge)
  | entryWithoutOutgoing (n : Node)
  | exitWithoutIncoming
  | disconnected (n : Node)
  | duplicateId (n : Node)
  | missingAction (n : Node)
  | unknownAction (n : Node) (word : String)
  | unknownPredicate (n : Node) (word : String)
  | missingBranch (n : Node)
  | loopSingleEdge (n : Node)
  | unreachable (n : Node)
  deriving DecidableEq

namespace Finding

def code : Finding → Code
  | noEntry => ⟨100⟩
  | multipleEntries _ => ⟨101⟩
  | noExit => ⟨102⟩
  | duplicateId _ => ⟨103⟩
  | unknownSource _ => ⟨200⟩
  | unknownTarget _ => ⟨201⟩
  | entryWithoutOutgoing _ => ⟨300⟩
  | exitWithoutIncoming => ⟨301⟩
  | disconnected _ => ⟨302⟩
  | unreachable _ => ⟨303⟩
  | missingAction _ => ⟨400⟩
  | unknownPredicate _ _ => ⟨401⟩
  | missingBranch _ => ⟨402⟩
  | loopSingleEdge _ => ⟨403⟩
  | unknownAction _ _ => ⟨404⟩

/-- Only what breaks the structure of a graph is an error. -/
def severity : Finding → Severity
  | noEntry | multipleEntries _ | noExit | unknownSource _ | unknownTarget _
  | entryWithoutOutgoing _ | exitWithoutIncoming | disconnected _ => .error
  | duplicateId _ | missingAction _ | unknownAction _ _ | unknownPredicate _ _ | missingBranch _
  | loopSingleEdge _ | unreachable _ => .warning

def message : Finding → String
  | noEntry => "Graph has no entry node"
  | multipleEntries count => s!"Graph must have exactly one entry node (found {count})"
  | noExit => "Graph has no exit node"
  | unknownSource e => s!"Edge source node not found: {e.source}"
  | unknownTarget e => s!"Edge target node not found: {e.target}"
  | entryWithoutOutgoing _ => "Entry node has no outgoing edge"
  | exitWithoutIncoming => "No exit node has an incoming edge"
  | disconnected n => s!"Node \"{n.displayName}\" is not connected"
  | duplicateId n => s!"Duplicate node id: {n.id}; only the first declaration is executed"
  | missingAction n => s!"Action node \"{n.displayName}\" has no action and will be skipped"
  | unknownAction n word =>
    s!"Action node \"{n.displayName}\" uses unknown action '{word}'; it only costs a step"
  | unknownPredicate n word =>
    s!"Condition node \"{n.displayName}\" uses unknown predicate '{word}'; " ++
      "it always takes the true branch"
  | missingBranch n => s!"Condition node \"{n.displayName}\" needs a true and a false edge"
  | loopSingleEdge n =>
    s!"Loop node \"{n.displayName}\" has a single outgoing edge; " ++
      "it restarts its body when the count runs out"
  | unreachable n => s!"Node \"{n.displayName}\" cannot be reached from the entry node"

def node? : Finding → Option Node
  | entryWithoutOutgoing n | disconnected n | duplicateId n | missingAction n | unknownAction n _
  | unknownPredicate n _ | missingBranch n | loopSingleEdge n | unreachable n => some n
  | noEntry | multipleEntries _ | noExit | unknownSource _ | unknownTarget _
  | exitWithoutIncoming => none

def edge? : Finding → Option Edge
  | unknownSource e | unknownTarget e => some e
  | _ => none

def diagnostic (f : Finding) : Diagnostic where
  code := f.code
  severity := f.severity
  category := f.code.category
  message := f.message
  nodeId := f.node?.map (·.id)
  edgeId := f.edge?.map (·.id)

end Finding
end Flowgraph
