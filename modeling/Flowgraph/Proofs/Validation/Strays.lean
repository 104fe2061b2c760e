import Flowgraph.Proofs.Run.Prune
import Flowgraph.Proofs.Validation.Errors
/-!
# Strays

The steps that a run cannot get to. A validation reports each declaration of one, as an error when no
edge mentions its id, and as a warning otherwise. The warning is only given for ids that no run ever
visits.
-/
namespace Flowgraph

/-- The codes of the error on a step that hangs on no edge, and of the warning on a node that is
linked, but not from the entry node. -/
def strayCodes : List Code := [⟨302⟩, ⟨303⟩]

namespace Survey
variable (s : Survey)

theorem filter_structural_strays :
    s.structural.filter (·.code ∈ strayCodes) = s.graph.nodes.flatMap s.loose := by
  have hends : (s.graph.edges.flatMap s.danglingEnds).filter (·.code ∈ strayCodes) = [] :=
    (Finding.Coded.flatMap s.danglingEnds_coded _).filter_eq_nil (by decide)
  have hloose : (s.graph.nodes.flatMap s.loose).filter (·.code ∈ strayCodes) =
      s.graph.nodes.flatMap s.loose :=
    (Finding.Coded.flatMap s.loose_coded _).filter_eq_self (by decide)
  rw [structural, List.filter_append, List.filter_append, List.filter_append, List.filter_append,
    s.entryAndExit_coded.filter_eq_nil (by decide), hends,
    s.deadEntry_coded.filter_eq_nil (by decide), s.deadExits_coded.filter_eq_nil (by decide),
    hloose]
  rfl

theorem filter_advisory_strays : s.advisory.filter (·.code ∈ strayCodes) = s.outOfReach := by
  have hincomplete : (s.graph.nodes.flatMap s.incomplete).filter (·.code ∈ strayCodes) = [] :=
    (Finding.Coded.flatMap s.incomplete_coded _).filter_eq_nil (by decide)
  rw [advisory, List.filter_append, List.filter_append,
    s.duplicates_coded.filter_eq_nil (by decide), hincomplete,
    s.outOfReach_coded.filter_eq_self (by decide)]
  rfl

end Survey

namespace Finding

theorem filter_map_diagnostic (fs : List Finding) :
    (fs.map diagnostic).filter (·.code ∈ strayCodes) =
      (fs.filter (·.code ∈ strayCodes)).map diagnostic := by
  rw [List.filter_map]
  rfl

theorem diagnostic_of_warning {f : Finding} (h : f.severity = .warning) :
    f.diagnostic = { Diagnostic.warning f.code f.message with
      nodeId := f.node?.map (·.id)
      edgeId := f.edge?.map (·.id) } := by
  simp only [diagnostic, Diagnostic.warning, h]

end Finding

namespace Graph
variable (g : Graph)

def looseReport (n : Node) : Diagnostic :=
  (Diagnostic.error ⟨302⟩ s!"Node \"{n.displayName}\" is not connected").atNode n.id

def unreachedReport (n : Node) : Diagnostic :=
  (Diagnostic.warning ⟨303⟩
    s!"Node \"{n.displayName}\" cannot be reached from the entry node").atNode n.id

theorem diagnostic_unreachable (n : Node) :
    (Finding.unreachable n).diagnostic = unreachedReport n := Finding.diagnostic_of_warning rfl

def unreachedWarnings (n : Node) : List Diagnostic :=
  if n.id ∉ g.reachIds ∧ g.Links n.id then [unreachedReport n] else []

end Graph

namespace Survey
variable (g : Graph) {entry : Node}

theorem contains_reached (id : String) :
    (g.reach.foldl addId ∅).contains id = decide (id ∈ g.reachIds) := by
  rw [Bool.eq_iff_iff, contains_foldl_addId]
  simp [Graph.reachIds]

theorem map_unreachable (ns : List Node) :
    ((ns.filter fun n => n.id ∉ g.reachIds ∧ g.Links n.id).map Finding.unreachable).map
      Finding.diagnostic = ns.flatMap g.unreachedWarnings := by
  induction ns with
  | nil => rfl
  | cons n ns ih =>
    rw [List.flatMap_cons, ← ih, Graph.unreachedWarnings, List.filter_cons]
    by_cases h : n.id ∉ g.reachIds ∧ g.Links n.id
    · rw [if_pos (decide_eq_true h), if_pos h, List.map_cons, List.map_cons,
        Graph.diagnostic_unreachable]
      rfl
    · rw [if_neg (by simpa using h), if_neg h]
      rfl

theorem map_outOfReach (he : g.entryNode? = some entry) :
    (ofGraph g).outOfReach.map Finding.diagnostic = g.nodes.flatMap g.unreachedWarnings := by
  have hout : ∀ n : Node, (!(g.reach.foldl addId ∅).contains n.id &&
      (ofGraph g).linked.contains n.id) = decide (n.id ∉ g.reachIds ∧ g.Links n.id) := by
    intro n
    rw [contains_reached, contains_linked]
    simp
  rw [← map_unreachable, outOfReach, show (ofGraph g).graph = g from rfl, he]
  simp only [hout]

end Survey

namespace Graph
variable {g : Graph} {n : Node} {entry : Node}

theorem looseErrors_of_not_links (ht : n.tag ∈ [Tag.action, .condition, .loop])
    (hl : ¬g.Links n.id) : g.looseErrors n = [looseReport n] := if_pos ⟨ht, hl⟩

theorem looseErrors_of_links (hl : g.Links n.id) : g.looseErrors n = [] := if_neg fun h => h.2 hl

theorem unreachedWarnings_of_mem (h : n.id ∈ g.reachIds) : g.unreachedWarnings n = [] :=
  if_neg fun hn => hn.1 h

/-- Each declaration that a run cannot get to is reported where it stands, and once. -/
structure StraysReported (g : Graph) : Prop where
  errors : g.diagnose.errors.filter (·.code ∈ strayCodes) = g.nodes.flatMap g.looseErrors
  warnings : g.diagnose.warnings.filter (·.code ∈ strayCodes) = g.nodes.flatMap g.unreachedWarnings
  once : ∀ n ∈ g.nodes, n.tag ∈ [Tag.action, .condition, .loop] → n.id ∉ g.reachIds →
    if g.Links n.id then g.looseErrors n = [] ∧ g.unreachedWarnings n = [unreachedReport n]
    else g.looseErrors n = [looseReport n] ∧ g.unreachedWarnings n = []
  reached : ∀ n ∈ g.nodes, n.id ∈ g.reachIds → g.unreachedWarnings n = []
  unvisited : ∀ d ∈ g.diagnose.errors ++ g.diagnose.warnings, d.code = ⟨303⟩ →
    ∃ id, d.nodeId = some id ∧ id ∉ g.reachIds ∧
      ∀ level ceiling, id ∉ (g.run level ceiling).visited

theorem errors_of_strays (g : Graph) :
    g.diagnose.errors.filter (·.code ∈ strayCodes) = g.nodes.flatMap g.looseErrors := by
  rw [errors_diagnose, Finding.filter_map_diagnostic,
    Survey.filter_structural_strays, List.map_flatMap]
  exact congrArg (g.nodes.flatMap ·) (funext (Survey.map_loose g))

theorem warnings_of_strays (he : g.entryNode? = some entry) :
    g.diagnose.warnings.filter (·.code ∈ strayCodes) = g.nodes.flatMap g.unreachedWarnings := by
  rw [warnings_diagnose, Finding.filter_map_diagnostic, Survey.filter_advisory_strays,
    Survey.map_outOfReach g he]

theorem exists_of_mem_unreachedWarnings {d : Diagnostic}
    (hd : d ∈ g.nodes.flatMap g.unreachedWarnings) :
    ∃ n ∈ g.nodes, d = unreachedReport n ∧ n.id ∉ g.reachIds := by
  obtain ⟨n, hn, hd⟩ := List.mem_flatMap.mp hd
  unfold unreachedWarnings at hd
  split_ifs at hd with h
  · exact ⟨n, hn, List.mem_singleton.mp hd, h.1⟩
  · cases hd

theorem mem_unreachedWarnings (he : g.entryNode? = some entry) {d : Diagnostic}
    (hd : d ∈ g.diagnose.errors ++ g.diagnose.warnings) (hc : d.code = ⟨303⟩) :
    d ∈ g.nodes.flatMap g.unreachedWarnings := by
  have hstray : decide (d.code ∈ strayCodes) = true := by simp [hc, strayCodes]
  rcases List.mem_append.mp hd with hd | hd
  · rw [errors_diagnose] at hd
    obtain ⟨f, hf, rfl⟩ := List.mem_map.mp hd
    have hcode : (⟨303⟩ : Code) ∈ Finding.errorCodes := hc ▸ Survey.structural_coded _ f hf
    exact absurd hcode (by decide)
  · rw [← warnings_of_strays he]
    exact List.mem_filter.mpr ⟨hd, hstray⟩

theorem strays_reported (he : g.entryNode? = some entry) : g.StraysReported where
  errors := errors_of_strays g
  warnings := warnings_of_strays he
  once := by
    intro n _ ht hr
    split_ifs with hl
    · exact ⟨looseErrors_of_links hl, if_pos ⟨hr, hl⟩⟩
    · exact ⟨looseErrors_of_not_links ht hl, if_neg fun h => hl h.2⟩
  reached := by
    intro n _ hr
    exact unreachedWarnings_of_mem hr
  unvisited := by
    intro d hd hc
    obtain ⟨n, -, rfl, hr⟩ := exists_of_mem_unreachedWarnings (mem_unreachedWarnings he hd hc)
    have hentry : ∀ m, g.entryNode? = some m → m.id ∈ g.reachIds := by
      intro m hm
      exact entry_id_mem_reachIds hm
    refine ⟨n.id, rfl, hr, ?_⟩
    intro level ceiling hv
    exact hr (visited_within (closed_reachIds g) hentry hv)

/-- A step on no edge, two declarations of an id that only an undeclared id leads to, a step that goes
by the id of the entry node, and an exit on no edge. -/
def scattered : Graph where
  nodes := [{ id := "in", kind := .entry }, { id := "in", kind := .action none },
    { id := "island", kind := .action (some (.known .move)), label := "Go" },
    { id := "far", kind := .action none }, { id := "far", kind := .entry },
    { id := "out", kind := .exit }, { id := "end", kind := .exit }]
  edges := [⟨"1", "in", "out", none⟩, ⟨"2", "nowhere", "far", none⟩]

theorem scattered_strays :
    scattered.entryNode? = some { id := "in", kind := .entry } ∧
      (scattered.diagnose.errors.filter (·.code ∈ strayCodes)).map (·.nodeId) = [some "island"] ∧
      (scattered.diagnose.warnings.filter (·.code ∈ strayCodes)).map (·.nodeId) =
        [some "far", some "far"] ∧
      ∀ level ceiling, "far" ∉ (scattered.run level ceiling).visited := by
  have he : scattered.entryNode? = some { id := "in", kind := .entry } := rfl
  have h := strays_reported he
  refine ⟨he, ?_, ?_, ?_⟩
  · rw [h.errors]
    decide +kernel
  · rw [h.warnings]
    decide +kernel
  · have hmem : unreachedReport { id := "far", kind := .action none } ∈
        scattered.diagnose.errors ++ scattered.diagnose.warnings := by
      refine List.mem_append_right _ (List.mem_of_mem_filter (p := (·.code ∈ strayCodes)) ?_)
      rw [h.warnings]
      exact List.mem_flatMap.mpr
        ⟨{ id := "far", kind := .action none }, by decide +kernel, by decide +kernel⟩
    obtain ⟨id, hid, -, hv⟩ := h.unvisited _ hmem rfl
    cases hid
    exact hv

end Graph
end Flowgraph
