import Flowgraph.Proofs.Validation.Checks
import Flowgraph.Proofs.Validation.Survey
/-!
# The errors of a graph

`Graph.errorReport` tells the errors of a graph by plain scans of it, check by check. A validation
reports these and no others, in this order, each as often as the scan meets it.
-/
namespace Flowgraph
namespace Graph
variable (g : Graph)

def entryErrors : List Diagnostic :=
  match (g.nodesOf .entry).length with
  | 0 => [.error ⟨100⟩ "Graph has no entry node"]
  | 1 => []
  | more + 2 => [.error ⟨101⟩ s!"Graph must have exactly one entry node (found {more + 2})"]

def exitErrors : List Diagnostic :=
  if ∃ n ∈ g.nodes, n.tag = .exit then [] else [.error ⟨102⟩ "Graph has no exit node"]

def edgeErrors (e : Edge) : List Diagnostic :=
  (if g.Declares e.source then []
    else [(Diagnostic.error ⟨200⟩ s!"Edge source node not found: {e.source}").atEdge e.id]) ++
  (if g.Declares e.target then []
    else [(Diagnostic.error ⟨201⟩ s!"Edge target node not found: {e.target}").atEdge e.id])

/-- Only the first entry node has to be left by an edge. -/
def leavingErrors : List Diagnostic :=
  match g.entryNode? with
  | none => []
  | some n =>
    if ∃ e ∈ g.edges, e.source = n.id then []
    else [(Diagnostic.error ⟨300⟩ "Entry node has no outgoing edge").atNode n.id]

/-- It is enough that one exit node has an edge that leads to it. -/
def arrivalErrors : List Diagnostic :=
  if (∃ n ∈ g.nodes, n.tag = .exit) ∧ ¬∃ n ∈ g.nodes, n.tag = .exit ∧ ∃ e ∈ g.edges, e.target = n.id
  then [.error ⟨301⟩ "No exit node has an incoming edge"]
  else []

def looseErrors (n : Node) : List Diagnostic :=
  if n.tag ∈ [Tag.action, .condition, .loop] ∧ ¬g.Links n.id then
    [(Diagnostic.error ⟨302⟩ s!"Node \"{n.displayName}\" is not connected").atNode n.id]
  else []

def errorReport : List Diagnostic :=
  g.entryErrors ++ g.exitErrors ++ g.edges.flatMap g.edgeErrors ++ g.leavingErrors ++
    g.arrivalErrors ++ g.nodes.flatMap g.looseErrors

end Graph

namespace Finding

theorem diagnostic_of_error {f : Finding} (h : f.severity = .error) :
    f.diagnostic = { Diagnostic.error f.code f.message with
      nodeId := f.node?.map (·.id)
      edgeId := f.edge?.map (·.id) } := by
  simp only [diagnostic, Diagnostic.error, h]

theorem map_diagnostic_singleton {f : Finding} (h : f.severity = .error) :
    [f].map diagnostic = [{ Diagnostic.error f.code f.message with
      nodeId := f.node?.map (·.id)
      edgeId := f.edge?.map (·.id) }] :=
  congrArg ([·]) (diagnostic_of_error h)

end Finding

namespace Survey
variable (g : Graph)

theorem map_entryAndExit :
    (ofGraph g).entryAndExit.map Finding.diagnostic = g.entryErrors ++ g.exitErrors := by
  have hexit : (g.nodesOf .exit).isEmpty = true ↔ ¬∃ n ∈ g.nodes, n.tag = .exit := by
    simp [Graph.nodesOf]
  simp only [entryAndExit, Graph.entryErrors, Graph.exitErrors, List.map_append,
    show (ofGraph g).graph = g from rfl, hexit]
  congr 1
  · rcases (g.nodesOf .entry).length with _ | _ | more
    · rfl
    · rfl
    · rfl
  · by_cases hx : ∃ n ∈ g.nodes, n.tag = .exit
    · rw [if_neg (not_not_intro hx), if_pos hx]
      rfl
    · rw [if_pos hx, if_neg hx]
      exact Finding.map_diagnostic_singleton rfl

theorem map_danglingEnds (e : Edge) :
    ((ofGraph g).danglingEnds e).map Finding.diagnostic = g.edgeErrors e := by
  simp only [danglingEnds, Graph.edgeErrors, contains_ids, decide_eq_true_eq, List.map_append]
  congr 1
  · split_ifs
    · rfl
    · exact Finding.map_diagnostic_singleton rfl
  · split_ifs
    · rfl
    · exact Finding.map_diagnostic_singleton rfl

theorem map_deadEntry : (ofGraph g).deadEntry.map Finding.diagnostic = g.leavingErrors := by
  simp only [deadEntry, Graph.leavingErrors, show (ofGraph g).graph = g from rfl,
    outDegree_ofGraph]
  cases g.entryNode? with
  | none => rfl
  | some n =>
    have hleft : (g.outgoing n.id).length = 0 ↔ ¬∃ e ∈ g.edges, e.source = n.id := by
      simp [Graph.outgoing]
    simp only [hleft]
    by_cases hl : ∃ e ∈ g.edges, e.source = n.id
    · rw [if_neg (not_not_intro hl), if_pos hl]
      rfl
    · rw [if_pos hl, if_neg hl]
      exact Finding.map_diagnostic_singleton rfl

theorem map_deadExits : (ofGraph g).deadExits.map Finding.diagnostic = g.arrivalErrors := by
  have hfine : ((g.nodesOf .exit).isEmpty ||
      (g.nodesOf .exit).any fun x => g.edges.any (·.target == x.id)) = true ↔
      ((∃ n ∈ g.nodes, n.tag = .exit) →
        ∃ n ∈ g.nodes, n.tag = .exit ∧ ∃ e ∈ g.edges, e.target = n.id) := by
    rw [Bool.or_eq_true, Decidable.or_iff_not_imp_left]
    simp [Graph.nodesOf]
  simp only [deadExits, Graph.arrivalErrors, show (ofGraph g).graph = g from rfl, hfine]
  by_cases hr : (∃ n ∈ g.nodes, n.tag = .exit) →
      ∃ n ∈ g.nodes, n.tag = .exit ∧ ∃ e ∈ g.edges, e.target = n.id
  · rw [if_pos hr, if_neg fun h => h.2 (hr h.1)]
    rfl
  · rw [if_neg hr, if_pos (Classical.not_imp.mp hr)]
    exact Finding.map_diagnostic_singleton rfl

theorem map_loose (n : Node) :
    ((ofGraph g).loose n).map Finding.diagnostic = g.looseErrors n := by
  have htag : (n.tag = .entry || n.tag = .exit || (ofGraph g).linked.contains n.id) = true ↔
      ¬(n.tag ∈ [Tag.action, .condition, .loop] ∧ ¬g.Links n.id) := by
    rw [contains_linked]
    cases n.tag <;> simp
  simp only [loose, Graph.looseErrors, htag]
  by_cases hl : n.tag ∈ [Tag.action, .condition, .loop] ∧ ¬g.Links n.id
  · rw [if_neg (not_not_intro hl), if_pos hl]
    exact Finding.map_diagnostic_singleton rfl
  · rw [if_pos hl, if_neg hl]
    rfl

theorem map_structural :
    (ofGraph g).structural.map Finding.diagnostic = g.errorReport := by
  simp only [structural, Graph.errorReport, List.map_append, List.map_flatMap, map_entryAndExit,
    map_danglingEnds, map_deadEntry, map_deadExits, map_loose, List.append_assoc]
  rfl

end Survey

namespace Graph

theorem diagnose_errors (g : Graph) : g.diagnose.errors = g.errorReport :=
  (errors_diagnose g).trans (Survey.map_structural g)

theorem diagnose_counted (g : Graph) : g.diagnose.Counted :=
  Diagnostics.Counted.pushAll ⟨rfl, rfl⟩ _

/-- A validation reports the errors that scans of the graph find, and none else, in the order of the
checks; the graph is valid when there are none, and the messages are theirs. -/
theorem errors_reported_exactly (g : Graph) :
    g.diagnose.errors = g.errorReport ∧
      (∀ d ∈ g.diagnose.errors, d.severity = .error ∧ d.category = d.code.category) ∧
      (g.validate.valid = true ↔ g.errorReport = []) ∧
      g.validate.errors = g.errorReport.map (·.message) := by
  have he := diagnose_errors g
  refine ⟨he, ?_, ?_, ?_⟩
  · intro d hd
    rw [diagnose, validateInto, Diagnostics.errors_pushAll] at hd
    obtain ⟨hd, hs⟩ := List.mem_filter.mp hd
    obtain ⟨f, -, rfl⟩ := List.mem_map.mp hd
    exact ⟨of_decide_eq_true hs, rfl⟩
  · rw [← he]
    exact (diagnose_counted g).valid_iff
  · rw [← he]
    rfl

def tangled : Graph where
  nodes := [{ id := "a", kind := .entry }, { id := "b", kind := .entry },
    { id := "l", kind := .loop { count := 2 }, label := "Again" }]
  edges := [⟨"1", "a", "c", none⟩]

theorem tangled_errors :
    tangled.diagnose.errors =
        [.error ⟨101⟩ "Graph must have exactly one entry node (found 2)",
          .error ⟨102⟩ "Graph has no exit node",
          (Diagnostic.error ⟨201⟩ "Edge target node not found: c").atEdge "1",
          (Diagnostic.error ⟨302⟩ "Node \"Again\" is not connected").atNode "l"] ∧
      Diagnostic.error ⟨102⟩ "Graph has no exit node" ∈ tangled.diagnose.errors ∧
      (Diagnostic.error ⟨102⟩ "Graph has no exit node").severity = .error ∧
      tangled.validate.valid = false := by
  obtain ⟨he, hs, hv, -⟩ := errors_reported_exactly tangled
  have hm : Diagnostic.error ⟨102⟩ "Graph has no exit node" ∈ tangled.diagnose.errors := by
    rw [he]
    decide
  refine ⟨he.trans (by decide), hm, (hs _ hm).1, ?_⟩
  rw [Bool.eq_false_iff, ne_eq, hv]
  decide

end Graph
end Flowgraph
