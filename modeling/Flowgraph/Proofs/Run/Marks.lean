import Flowgraph.Proofs.Run.Moment
/-!
# Marked edges

A condition is left by the first edge that is marked for the outcome. When no edge is, places decide:
the first edge stands for yes and the second for no, whatever they are marked for. So an outcome goes
against a mark when no edge is marked for it and the edge in its place is marked for the other one.
-/
namespace Flowgraph
namespace Graph
variable {g : Graph} {n : Node} {e : Edge} {b : Bool}

/-- The edge that stands for an outcome by its place. -/
def placedEdge? (g : Graph) (n : Node) (outcome : Bool) : Option Edge :=
  (g.outgoing n.id)[if outcome then 0 else 1]?

theorem branchEdge?_of_find? (h : (g.outgoing n.id).find? (·.branch = some b) = some e) :
    g.branchEdge? n b = some e := by
  cases b with
  | true => rw [branchEdge?, h, Option.some_or]
  | false => rw [branchEdge?, h, Option.some_or]

theorem branchEdge?_of_marked (h : ∃ e ∈ g.outgoing n.id, e.branch = some b) :
    ∃ e, g.branchEdge? n b = some e ∧ e.branch = some b := by
  obtain ⟨e', he', hb⟩ := h
  have hsome : ((g.outgoing n.id).find? (·.branch = some b)).isSome = true := by
    rw [List.find?_isSome]
    exact ⟨e', he', decide_eq_true hb⟩
  obtain ⟨e, he⟩ := Option.isSome_iff_exists.mp hsome
  exact ⟨e, branchEdge?_of_find? he, by simpa using List.find?_some he⟩

theorem branchEdge?_of_unmarked (h : ∀ e ∈ g.outgoing n.id, e.branch ≠ some b)
    (htwo : 2 ≤ (g.outgoing n.id).length) : g.branchEdge? n b = g.placedEdge? n b := by
  have hnone : (g.outgoing n.id).find? (·.branch = some b) = none := by
    rw [List.find?_eq_none]
    intro e he
    simpa using h e he
  cases b with
  | true => rw [branchEdge?, hnone, Option.none_or, List.head?_eq_getElem?]; rfl
  | false =>
    have hsecond : (g.outgoing n.id)[1]? = some (g.outgoing n.id)[1] := List.getElem?_eq_getElem htwo
    rw [branchEdge?, hnone, Option.none_or, hsecond, Option.some_or]
    exact hsecond.symm

/-- Of two edges or more, an outcome takes one that is marked for the other outcome exactly when none
is marked for it and the edge in its place is marked for the other. -/
theorem left_against_mark_iff (htwo : 2 ≤ (g.outgoing n.id).length) (b : Bool) :
    ∃ e ∈ g.outgoing n.id, g.branchEdge? n b = some e ∧
      (Index.ofGraph g).branch? n b = g.node? e.target ∧
      (e.branch = some (!b) ↔
        (∀ e' ∈ g.outgoing n.id, e'.branch ≠ some b) ∧
          (g.placedEdge? n b).bind (·.branch) = some (!b)) := by
  by_cases hm : ∃ e ∈ g.outgoing n.id, e.branch = some b
  · obtain ⟨e, he, hb⟩ := branchEdge?_of_marked hm
    refine ⟨e, mem_of_branchEdge? he, he, ?_, ?_⟩
    · rw [Index.branch?_ofGraph, he]
      rfl
    · constructor
      · intro ho
        rw [hb] at ho
        simp at ho
      · rintro ⟨hnone, -⟩
        obtain ⟨e', he', hb'⟩ := hm
        exact absurd hb' (hnone e' he')
  · have hnone : ∀ e ∈ g.outgoing n.id, e.branch ≠ some b := fun e he hb => hm ⟨e, he, hb⟩
    have hplace := branchEdge?_of_unmarked hnone htwo
    have hlt : (if b then 0 else 1) < (g.outgoing n.id).length := by
      split_ifs <;> omega
    have he : g.placedEdge? n b = some (g.outgoing n.id)[if b then 0 else 1] :=
      List.getElem?_eq_getElem hlt
    refine ⟨_, List.getElem_mem hlt, hplace.trans he, ?_, ?_⟩
    · rw [Index.branch?_ofGraph, hplace, he]
      rfl
    · rw [he]
      exact ⟨fun ho => ⟨hnone, ho⟩, fun h => h.2⟩

def fork : Graph where
  nodes := [{ id := "ask", kind := .condition (.known .canMove) },
    { id := "no", kind := .action (some (.known .turnRight)) },
    { id := "yes", kind := .action (some (.known .move)) }]
  edges := [⟨"1", "ask", "no", some false⟩, ⟨"2", "ask", "no", none⟩,
    ⟨"3", "ask", "yes", some true⟩]

theorem fork_keeps_mark :
    2 ≤ (fork.outgoing "ask").length ∧
      ∃ e, fork.branchEdge? ⟨"ask", .condition (.known .canMove), ""⟩ true = some e ∧
        e.branch ≠ some false ∧
        (Index.ofGraph fork).branch? ⟨"ask", .condition (.known .canMove), ""⟩ true =
          fork.node? e.target := by
  have htwo : 2 ≤ (fork.outgoing "ask").length := by decide
  obtain ⟨e, -, he, htarget, hagainst⟩ :=
    left_against_mark_iff (n := ⟨"ask", .condition (.known .canMove), ""⟩) htwo true
  refine ⟨htwo, e, he, ?_, htarget⟩
  intro ho
  obtain ⟨hnone, -⟩ := hagainst.mp ho
  exact hnone ⟨"3", "ask", "yes", some true⟩ (by decide) rfl

def halfMarked : Graph where
  nodes := [{ id := "ask", kind := .condition (.known .canMove) },
    { id := "no", kind := .action (some (.known .turnRight)) },
    { id := "yes", kind := .action (some (.known .move)) }]
  edges := [⟨"1", "ask", "no", some false⟩, ⟨"2", "ask", "yes", none⟩]

/-- An edge that is not marked for no is there, and yet the edge for no is taken on a yes. -/
theorem halfMarked_against_mark :
    ⟨"ask", .condition (.known .canMove), ""⟩ ∈ halfMarked.nodes ∧
      2 ≤ (halfMarked.outgoing "ask").length ∧
      (∃ e ∈ halfMarked.outgoing "ask", e.branch ≠ some false) ∧
      (∀ e ∈ halfMarked.outgoing "ask", e.target = "no" → e.branch = some false) ∧
      halfMarked.branchEdge? ⟨"ask", .condition (.known .canMove), ""⟩ true =
        some ⟨"1", "ask", "no", some false⟩ ∧
      (Index.ofGraph halfMarked).branch? ⟨"ask", .condition (.known .canMove), ""⟩ true =
        some ⟨"no", .action (some (.known .turnRight)), ""⟩ := by
  refine ⟨by decide, by decide, by decide, by decide, by decide, ?_⟩
  rw [Index.branch?_ofGraph]
  decide

end Graph
end Flowgraph
