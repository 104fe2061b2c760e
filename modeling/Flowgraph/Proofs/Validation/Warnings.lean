import Flowgraph.Proofs.Validation.Duplicates
import Flowgraph.Proofs.Validation.Strays
/-!
# The warnings of a graph

`Graph.warningReport` tells the warnings of a graph by plain scans of it: ids that are declared again,
what each node lacks, and what the entry node does not lead to. A validation gives these warnings and no
others, in this order, each as often as the scan meets it.
-/
namespace Flowgraph

def Node.warning (n : Node) (code : Code) (message : String) : Diagnostic :=
  (Diagnostic.warning code message).atNode n.id

namespace Graph
variable (g : Graph)

def duplicateWarning (n : Node) : Diagnostic :=
  n.warning ⟨103⟩ s!"Duplicate node id: {n.id}; only the first declaration is executed"

def predicateWarnings (n : Node) : Predicate → List Diagnostic
  | .known _ => []
  | .unknown word _ => [n.warning ⟨401⟩
      (s!"Condition node \"{n.displayName}\" uses unknown predicate '{word}'; " ++
        "it always takes the true branch")]

/-- Edges count by their source, wherever they lead. -/
def branchWarnings (n : Node) : List Diagnostic :=
  if (g.outgoing n.id).length < 2 then
    [n.warning ⟨402⟩ s!"Condition node \"{n.displayName}\" needs a true and a false edge"]
  else []

def payloadWarnings (n : Node) : List Diagnostic :=
  match n.kind with
  | .entry | .exit | .action (some (.known _)) => []
  | .action none =>
    [n.warning ⟨400⟩ s!"Action node \"{n.displayName}\" has no action and will be skipped"]
  | .action (some (.unknown word _)) => [n.warning ⟨404⟩
      s!"Action node \"{n.displayName}\" uses unknown action '{word}'; it only costs a step"]
  | .condition p => predicateWarnings n p ++ g.branchWarnings n
  | .loop _ =>
    if (g.outgoing n.id).length = 1 then
      [n.warning ⟨403⟩ (s!"Loop node \"{n.displayName}\" has a single outgoing edge; " ++
        "it restarts its body when the count runs out")]
    else []

def reachWarnings : List Diagnostic :=
  match g.entryNode? with
  | none => []
  | some _ => g.nodes.flatMap g.unreachedWarnings

def warningReport : List Diagnostic :=
  g.secondDeclarations.map duplicateWarning ++ g.nodes.flatMap g.payloadWarnings ++
    g.reachWarnings

end Graph

theorem Finding.map_warning {f : Finding} {n : Node} (h : f.severity = .warning)
    (hn : f.node? = some n) (he : f.edge? = none) :
    [f].map diagnostic = [n.warning f.code f.message] := by
  rw [List.map_singleton, diagnostic_of_warning h, hn, he]
  rfl

namespace Survey
variable (g : Graph)

theorem map_duplicates :
    (ofGraph g).duplicates.map Finding.diagnostic =
      g.secondDeclarations.map Graph.duplicateWarning := by
  rw [duplicates, List.map_map, show (ofGraph g).graph = g from rfl, g.secondDeclarations_ofGraph]
  apply List.map_congr_left
  intro n _
  exact Finding.diagnostic_of_warning rfl

theorem map_incomplete (n : Node) :
    ((ofGraph g).incomplete n).map Finding.diagnostic = g.payloadWarnings n := by
  unfold incomplete Graph.payloadWarnings
  cases n.kind with
  | entry => rfl
  | exit => rfl
  | action a =>
    cases a with
    | none => exact Finding.map_warning rfl rfl rfl
    | some a =>
      cases a with
      | known => rfl
      | unknown => exact Finding.map_warning rfl rfl rfl
  | condition p =>
    simp only [outDegree_ofGraph, List.map_append]
    refine congrArg₂ (· ++ ·) ?predicate ?branches
    case predicate =>
      cases p with
      | known => rfl
      | unknown => exact Finding.map_warning rfl rfl rfl
    case branches =>
      unfold Graph.branchWarnings
      split_ifs
      · exact Finding.map_warning rfl rfl rfl
      · rfl
  | loop r =>
    simp only [outDegree_ofGraph]
    split_ifs
    · exact Finding.map_warning rfl rfl rfl
    · rfl

theorem map_reach : (ofGraph g).outOfReach.map Finding.diagnostic = g.reachWarnings := by
  unfold Graph.reachWarnings
  cases he : g.entryNode? with
  | none =>
    rw [outOfReach, show (ofGraph g).graph = g from rfl, he]
    rfl
  | some entry => exact map_outOfReach g he

theorem map_advisory : (ofGraph g).advisory.map Finding.diagnostic = g.warningReport := by
  simp only [advisory, Graph.warningReport, List.map_append, List.map_flatMap, map_duplicates,
    map_incomplete, map_reach]
  rfl

end Survey

namespace Graph
variable {g : Graph} {n : Node} {d : Diagnostic}

/-- The diagnostic is a warning about one of the nodes. -/
def Warns (ns : List Node) (d : Diagnostic) : Prop :=
  ∃ n ∈ ns, ∃ code message, d = n.warning code message

theorem warns_of_mem_payloadWarnings (hn : n ∈ g.nodes) (h : d ∈ g.payloadWarnings n) :
    Warns g.nodes d := by
  have hone : ∀ code message, d ∈ [n.warning code message] → Warns g.nodes d := by
    intro code message hd
    exact ⟨n, hn, code, message, List.mem_singleton.mp hd⟩
  unfold payloadWarnings at h
  split at h
  · cases h
  · cases h
  · cases h
  · exact hone _ _ h
  · exact hone _ _ h
  · rcases List.mem_append.mp h with h | h
    · unfold predicateWarnings at h
      split at h
      · cases h
      · exact hone _ _ h
    · unfold branchWarnings at h
      split_ifs at h
      · exact hone _ _ h
      · cases h
  · split_ifs at h
    · exact hone _ _ h
    · cases h

theorem mem_of_mem_secondDeclarations (h : n ∈ g.secondDeclarations) : n ∈ g.nodes := by
  obtain ⟨⟨m, i⟩, hm, rfl⟩ := List.mem_map.mp h
  exact List.fst_mem_of_mem_zipIdx (List.mem_filter.mp hm).1

theorem warns_of_mem_reachWarnings (h : d ∈ g.reachWarnings) : Warns g.nodes d := by
  unfold reachWarnings at h
  split at h
  · cases h
  · obtain ⟨n, hn, rfl, -⟩ := exists_of_mem_unreachedWarnings h
    exact ⟨n, hn, _, _, rfl⟩

theorem warns_of_mem_warningReport (h : d ∈ g.warningReport) : Warns g.nodes d := by
  rcases List.mem_append.mp h with h | h
  · rcases List.mem_append.mp h with h | h
    · obtain ⟨n, hn, rfl⟩ := List.mem_map.mp h
      exact ⟨n, mem_of_mem_secondDeclarations hn, _, _, rfl⟩
    · obtain ⟨n, hn, h⟩ := List.mem_flatMap.mp h
      exact warns_of_mem_payloadWarnings hn h
  · exact warns_of_mem_reachWarnings h

/-- A validation gives the warnings that scans of the graph find, and none else, in the order of the
checks. Each is about a node, and an id that is declared more than once is reported once. -/
theorem warnings_reported_exactly (g : Graph) :
    g.diagnose.warnings = g.warningReport ∧
      (∀ d ∈ g.diagnose.warnings, d.severity = .warning ∧ d.category = d.code.category ∧
        d.edgeId = none ∧ ∃ n ∈ g.nodes, d.nodeId = some n.id) ∧
      ∀ id, (g.secondDeclarations.map (·.id)).count id =
        if 2 ≤ Node.declarations g.nodes id then 1 else 0 := by
  have hw : g.diagnose.warnings = g.warningReport :=
    (warnings_diagnose g).trans (Survey.map_advisory g)
  refine ⟨hw, ?_, count_secondDeclarations g⟩
  intro d hd
  rw [hw] at hd
  obtain ⟨n, hn, code, message, rfl⟩ := warns_of_mem_warningReport hd
  exact ⟨rfl, rfl, rfl, n, hn, rfl⟩

/-- One id is declared three times, with a word that is not known and an edge to nowhere; two nodes have
edges but are out of reach. -/
def cluttered : Graph where
  nodes := [{ id := "in", kind := .entry },
    { id := "ask", kind := .condition (.ofWord "onFire"), label := "Hot?" },
    { id := "again", kind := .loop { count := 6 } }, { id := "ask", kind := .exit },
    { id := "ask", kind := .action none },
    { id := "far", kind := .action (some (.ofWord "jump")) }]
  edges := [⟨"1", "in", "ask", none⟩, ⟨"2", "ask", "nowhere", none⟩, ⟨"3", "again", "in", none⟩,
    ⟨"4", "far", "far", none⟩, ⟨"5", "far", "again", none⟩]

theorem cluttered_warnings :
    cluttered.diagnose.warnings.map (fun d => (d.code.number, d.nodeId)) =
        [(103, some "ask"), (401, some "ask"), (402, some "ask"), (403, some "again"),
          (400, some "ask"), (404, some "far"), (303, some "again"), (303, some "far")] ∧
      duplicateWarning { id := "ask", kind := .exit } ∈ cluttered.diagnose.warnings ∧
      (duplicateWarning { id := "ask", kind := .exit }).severity = .warning ∧
      (cluttered.secondDeclarations.map (·.id)).count "ask" = 1 := by
  obtain ⟨hw, hs, hcount⟩ := warnings_reported_exactly cluttered
  have hm : duplicateWarning { id := "ask", kind := .exit } ∈ cluttered.diagnose.warnings := by
    rw [hw]
    decide +kernel
  refine ⟨?_, hm, (hs _ hm).1, (hcount "ask").trans (by decide)⟩
  rw [hw]
  decide +kernel

end Graph
end Flowgraph
