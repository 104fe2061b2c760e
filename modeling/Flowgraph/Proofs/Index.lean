import Flowgraph.Proofs.Run.Moment
/-!
# Lookups

An index is filled by two passes, one over the nodes and one over the edges. What is looked up in it
is told here by places in the two lists: a node is the first that goes by its id, and of the edges
that leave an id the first, or the second, is meant by how many of them were drawn before.
-/
namespace Flowgraph

/-- `x` is one of the `xs` with the property `p`, and `k` others that have it come before it. -/
def Nth {α : Type} (p : α → Bool) (k : Nat) (xs : List α) (x : α) : Prop :=
  p x = true ∧ ∃ before after, xs = before ++ x :: after ∧ before.countP p = k

section
variable {α : Type} {p : α → Bool} {k : Nat} {xs : List α} {x y : α}

theorem Nth.mem (h : Nth p k xs x) : x ∈ xs := by
  obtain ⟨-, before, after, rfl, -⟩ := h
  exact List.mem_append_right before List.mem_cons_self

theorem nth_cons_iff :
    Nth p k (y :: xs) x ↔
      p y = true ∧ k = 0 ∧ x = y ∨ ∃ j, k = (j + if p y then 1 else 0) ∧ Nth p j xs x := by
  constructor
  · rintro ⟨hp, before, after, heq, rfl⟩
    cases before with
    | nil =>
      obtain ⟨rfl, rfl⟩ := List.cons.inj heq
      exact Or.inl ⟨hp, rfl, rfl⟩
    | cons z before =>
      obtain ⟨rfl, rfl⟩ := List.cons.inj heq
      exact Or.inr ⟨before.countP p, List.countP_cons, hp, before, after, rfl, rfl⟩
  · rintro (⟨hp, rfl, rfl⟩ | ⟨j, rfl, hp, before, after, rfl, rfl⟩)
    · exact ⟨hp, [], xs, rfl, rfl⟩
    · exact ⟨hp, y :: before, after, rfl, List.countP_cons⟩

theorem getElem?_filter_eq_some_iff : (xs.filter p)[k]? = some x ↔ Nth p k xs x := by
  induction xs generalizing k with
  | nil =>
    constructor
    · intro h
      cases h
    · intro h
      cases h.mem
  | cons y xs ih =>
    rw [nth_cons_iff]
    by_cases hp : p y = true
    · rw [List.filter_cons_of_pos hp]
      cases k with
      | zero => simp [hp, eq_comm]
      | succ k => simp [hp, ih]
    · rw [List.filter_cons_of_neg hp, ih]
      simp [hp]

theorem find?_eq_some_iff_nth : xs.find? p = some x ↔ Nth p 0 xs x := by
  rw [← getElem?_filter_eq_some_iff, ← List.head?_eq_getElem?, List.head?_filter]

end

namespace Graph
variable {g : Graph} {n m : Node} {b : Bool} {e : Edge}

theorem node?_eq_some_iff_nth {id : String} :
    g.node? id = some n ↔ Nth (·.id == id) 0 g.nodes n :=
  find?_eq_some_iff_nth

theorem getElem?_outgoing_eq_some_iff {id : String} {k : Nat} :
    (g.outgoing id)[k]? = some e ↔ Nth (·.source == id) k g.edges e :=
  getElem?_filter_eq_some_iff

/-- The edge of a node that an outcome goes by. A mark for the outcome comes first. With no such mark
it is the first edge for yes, and for no the second, or the first if there is no second. -/
inductive LeftBy (g : Graph) (n : Node) : Bool → Edge → Prop where
  | marked {b : Bool} {e : Edge}
      (first : Nth (fun e => e.source = n.id ∧ e.branch = some b) 0 g.edges e) :
      LeftBy g n b e
  | yes {e : Edge} (unmarked : ∀ e ∈ g.edges, e.source = n.id → e.branch ≠ some true)
      (first : Nth (·.source == n.id) 0 g.edges e) :
      LeftBy g n true e
  | no {e : Edge} (unmarked : ∀ e ∈ g.edges, e.source = n.id → e.branch ≠ some false)
      (second : Nth (·.source == n.id) 1 g.edges e) :
      LeftBy g n false e
  | only {e : Edge} (unmarked : ∀ e ∈ g.edges, e.source = n.id → e.branch ≠ some false)
      (lone : ∀ e, ¬Nth (·.source == n.id) 1 g.edges e)
      (first : Nth (·.source == n.id) 0 g.edges e) :
      LeftBy g n false e

theorem find?_marked_eq_some_iff :
    (g.outgoing n.id).find? (·.branch = some b) = some e ↔
      Nth (fun e => e.source = n.id ∧ e.branch = some b) 0 g.edges e := by
  rw [outgoing, List.find?_filter, ← find?_eq_some_iff_nth]
  simp only [beq_iff_eq, decide_eq_true_eq]

theorem find?_marked_eq_none_iff :
    (g.outgoing n.id).find? (·.branch = some b) = none ↔
      ∀ e ∈ g.edges, e.source = n.id → e.branch ≠ some b := by
  simp [List.find?_eq_none, outgoing]

theorem leftBy_iff_of_marked {marked : Edge}
    (h : (g.outgoing n.id).find? (·.branch = some b) = some marked) :
    g.LeftBy n b e ↔ marked = e := by
  have hfirst := find?_marked_eq_some_iff.mp h
  have hmark : ¬∀ e ∈ g.edges, e.source = n.id → e.branch ≠ some b := by
    intro hnone
    obtain ⟨hsource, hb⟩ := of_decide_eq_true hfirst.1
    exact hnone marked hfirst.mem hsource hb
  constructor
  · intro hleft
    cases hleft with
    | marked first => exact Option.some.inj (h.symm.trans (find?_marked_eq_some_iff.mpr first))
    | yes unmarked => exact absurd unmarked hmark
    | no unmarked => exact absurd unmarked hmark
    | only unmarked => exact absurd unmarked hmark
  · rintro rfl
    exact .marked hfirst

theorem not_marked_first (h : (g.outgoing n.id).find? (·.branch = some b) = none) (e : Edge) :
    ¬Nth (fun e => e.source = n.id ∧ e.branch = some b) 0 g.edges e := by
  intro first
  rw [find?_marked_eq_some_iff.mpr first] at h
  cases h

theorem leftBy_true_iff (h : (g.outgoing n.id).find? (·.branch = some true) = none) :
    g.LeftBy n true e ↔ (g.outgoing n.id)[0]? = some e := by
  rw [getElem?_outgoing_eq_some_iff]
  constructor
  · intro hleft
    cases hleft with
    | marked first => exact absurd first (not_marked_first h e)
    | yes _ first => exact first
  · exact .yes (find?_marked_eq_none_iff.mp h)

theorem leftBy_false_iff (h : (g.outgoing n.id).find? (·.branch = some false) = none) :
    g.LeftBy n false e ↔ (g.outgoing n.id)[1]?.or (g.outgoing n.id)[0]? = some e := by
  have hnone := find?_marked_eq_none_iff.mp h
  rw [Option.or_eq_some_iff, Option.eq_none_iff_forall_ne_some, getElem?_outgoing_eq_some_iff,
    getElem?_outgoing_eq_some_iff]
  simp only [ne_eq, getElem?_outgoing_eq_some_iff]
  constructor
  · intro hleft
    cases hleft with
    | marked first => exact absurd first (not_marked_first h e)
    | no _ second => exact Or.inl second
    | only _ lone first => exact Or.inr ⟨lone, first⟩
  · rintro (second | ⟨lone, first⟩)
    · exact .no hnone second
    · exact .only hnone lone first

theorem branchEdge?_eq_some_iff : g.branchEdge? n b = some e ↔ g.LeftBy n b e := by
  cases h : (g.outgoing n.id).find? (·.branch = some b) with
  | some marked =>
    rw [leftBy_iff_of_marked h]
    cases b with
    | true => rw [branchEdge?, h, Option.some_or, Option.some_inj]
    | false => rw [branchEdge?, h, Option.some_or, Option.some_inj]
  | none =>
    cases b with
    | true => rw [leftBy_true_iff h, branchEdge?, h, Option.none_or, List.head?_eq_getElem?]
    | false => rw [leftBy_false_iff h, branchEdge?, h, Option.none_or, List.head?_eq_getElem?]

theorem LeftBy.leaves (h : g.LeftBy n b e) : e ∈ g.edges ∧ e.source = n.id := by
  have hmem := mem_of_branchEdge? (branchEdge?_eq_some_iff.mpr h)
  obtain ⟨he, hsource⟩ := List.mem_filter.mp hmem
  exact ⟨he, beq_iff_eq.mp hsource⟩

end Graph

/-- What an index answers, by the two lists that a graph is made of. -/
structure Index.AgreesWith (ix : Index) (g : Graph) : Prop where
  node : ∀ id n, ix.node? id = some n ↔ Nth (·.id == id) 0 g.nodes n
  entry : ∀ n, ix.entryNode? = some n ↔ Nth (·.tag == .entry) 0 g.nodes n
  outgoing : ∀ id, ix.outgoing id = g.edges.filter (·.source == id)
  next : ∀ n m, ix.next? n = some m ↔
    ∃ e, Nth (·.source == n.id) 0 g.edges e ∧ Nth (·.id == e.target) 0 g.nodes m
  branch : ∀ n b m, ix.branch? n b = some m ↔
    ∃ e, g.LeftBy n b e ∧ Nth (·.id == e.target) 0 g.nodes m
  declared : ∀ n m, (ix.next? n = some m ∨ ∃ b, ix.branch? n b = some m) →
    Nth (·.id == m.id) 0 g.nodes m ∧ ∃ e ∈ g.edges, e.source = n.id ∧ e.target = m.id

namespace Graph
variable {g : Graph} {n m : Node} {b : Bool} {e : Edge}

theorem entryNode?_eq_some_iff : g.entryNode? = some n ↔ Nth (·.tag == .entry) 0 g.nodes n := by
  rw [entryNode?_eq_find?, find?_eq_some_iff_nth]

theorem next?_eq_some_iff :
    g.next? n = some m ↔
      ∃ e, Nth (·.source == n.id) 0 g.edges e ∧ Nth (·.id == e.target) 0 g.nodes m := by
  simp only [next?, List.head?_eq_getElem?, Option.bind_eq_some_iff,
    getElem?_outgoing_eq_some_iff, target?, node?_eq_some_iff_nth]

theorem bind_branchEdge?_eq_some_iff :
    (g.branchEdge? n b).bind g.target? = some m ↔
      ∃ e, g.LeftBy n b e ∧ Nth (·.id == e.target) 0 g.nodes m := by
  simp only [Option.bind_eq_some_iff, branchEdge?_eq_some_iff, target?, node?_eq_some_iff_nth]

theorem declared_of_edge (he : e ∈ g.edges) (hsource : e.source = n.id)
    (hm : Nth (·.id == e.target) 0 g.nodes m) :
    Nth (·.id == m.id) 0 g.nodes m ∧ ∃ e ∈ g.edges, e.source = n.id ∧ e.target = m.id := by
  have hid : m.id = e.target := beq_iff_eq.mp hm.1
  rw [hid]
  exact ⟨hm, e, he, hsource, rfl⟩

/-- For any two lists, an index over them answers as scans of the lists do. -/
theorem ofGraph_agrees (g : Graph) :
    (∀ id, (Index.ofGraph g).node? id = g.node? id) ∧
      (Index.ofGraph g).entryNode? = g.entryNode? ∧
      (Index.ofGraph g).AgreesWith g := by
  refine ⟨Index.node?_ofGraph g, Index.entryNode?_ofGraph g, ?_⟩
  constructor
  · intro id n
    rw [Index.node?_ofGraph, node?_eq_some_iff_nth]
  · intro n
    rw [Index.entryNode?_ofGraph, entryNode?_eq_some_iff]
  · exact Index.outgoing_ofGraph g
  · intro n m
    rw [Index.next?_ofGraph, next?_eq_some_iff]
  · intro n b m
    rw [Index.branch?_ofGraph, bind_branchEdge?_eq_some_iff]
  · rintro n m (h | ⟨b, h⟩)
    · rw [Index.next?_ofGraph, next?_eq_some_iff] at h
      obtain ⟨e, he, hm⟩ := h
      exact declared_of_edge he.mem (beq_iff_eq.mp he.1) hm
    · rw [Index.branch?_ofGraph, bind_branchEdge?_eq_some_iff] at h
      obtain ⟨e, he, hm⟩ := h
      exact declared_of_edge he.leaves.1 he.leaves.2 hm

def overdrawn : Graph where
  nodes := [{ id := "ask", kind := .condition (.known .atGoal) }, { id := "a", kind := .exit },
    { id := "a", kind := .entry }]
  edges := [⟨"1", "ask", "ghost", none⟩, ⟨"2", "ask", "ask", none⟩, ⟨"3", "ask", "a", some true⟩]

theorem overdrawn_agrees :
    (Index.ofGraph overdrawn).branch? ⟨"ask", .condition (.known .atGoal), ""⟩ true =
        some ⟨"a", .exit, ""⟩ ∧
      Nth (·.id == "a") 0 overdrawn.nodes ⟨"a", .exit, ""⟩ ∧
      ∃ e ∈ overdrawn.edges, e.source = "ask" ∧ e.target = "a" := by
  obtain ⟨-, -, h⟩ := ofGraph_agrees overdrawn
  have hleft : overdrawn.LeftBy ⟨"ask", .condition (.known .atGoal), ""⟩ true
      ⟨"3", "ask", "a", some true⟩ :=
    .marked ⟨by decide, overdrawn.edges.take 2, [], rfl, rfl⟩
  have hfound : (Index.ofGraph overdrawn).branch? ⟨"ask", .condition (.known .atGoal), ""⟩ true =
      some ⟨"a", .exit, ""⟩ :=
    (h.branch _ _ _).mpr
      ⟨_, hleft, rfl, overdrawn.nodes.take 1, overdrawn.nodes.drop 2, rfl, rfl⟩
  exact ⟨hfound, h.declared _ _ (Or.inr ⟨true, hfound⟩)⟩

end Graph
end Flowgraph
