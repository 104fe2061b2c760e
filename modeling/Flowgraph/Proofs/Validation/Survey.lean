import Flowgraph.Validation
/-!
# What a survey knows

The sets and counts of a survey, made in one pass over the graph, answer as scans of the graph do.
-/
namespace Flowgraph
namespace Graph

/-- Some node goes by the id. -/
def Declares (g : Graph) (id : String) : Prop := ∃ n ∈ g.nodes, n.id = id

def Links (g : Graph) (id : String) : Prop := ∃ e ∈ g.edges, e.source = id ∨ e.target = id

instance (g : Graph) (id : String) : Decidable (g.Declares id) :=
  inferInstanceAs (Decidable (∃ n ∈ g.nodes, n.id = id))

instance (g : Graph) (id : String) : Decidable (g.Links id) :=
  inferInstanceAs (Decidable (∃ e ∈ g.edges, e.source = id ∨ e.target = id))

theorem exists_node?_of_declares {g : Graph} {id : String} (h : g.Declares id) :
    ∃ n, g.node? id = some n := by
  obtain ⟨n, hn, hid⟩ := h
  refine Option.isSome_iff_exists.mp ?_
  rw [node?, List.find?_isSome]
  exact ⟨n, hn, by simp [hid]⟩

end Graph

namespace Survey
variable (g : Graph) (id : String)

theorem contains_foldl_addId (ns : List Node) (s : Std.TreeSet String) :
    (ns.foldl addId s).contains id = true ↔ s.contains id = true ∨ ∃ n ∈ ns, n.id = id := by
  induction ns generalizing s with
  | nil => simp
  | cons n ns ih =>
    rw [List.foldl_cons, ih, addId, Std.TreeSet.contains_insert]
    simp [or_assoc, or_left_comm]

theorem contains_foldl_addEnds (es : List Edge) (s : Std.TreeSet String) :
    (es.foldl addEnds s).contains id = true ↔
      s.contains id = true ∨ ∃ e ∈ es, e.source = id ∨ e.target = id := by
  induction es generalizing s with
  | nil => simp
  | cons e es ih =>
    rw [List.foldl_cons, ih, addEnds, Std.TreeSet.contains_insert, Std.TreeSet.contains_insert]
    simp [or_assoc, or_left_comm]

theorem getD_foldl_countSource (es : List Edge) (m : Std.TreeMap String Nat) :
    (es.foldl countSource m).getD id 0 = m.getD id 0 + (es.filter (·.source == id)).length := by
  induction es generalizing m with
  | nil => simp
  | cons e es ih =>
    rw [List.foldl_cons, ih, countSource, Std.TreeMap.getD_insert]
    by_cases h : e.source = id
    · subst h
      simp
      omega
    · simp [h, Std.LawfulEqCmp.compare_eq_iff_eq]

theorem contains_ids : (ofGraph g).ids.contains id = decide (g.Declares id) := by
  rw [Bool.eq_iff_iff, decide_eq_true_iff]
  exact (contains_foldl_addId id g.nodes ∅).trans (by simp [Graph.Declares])

theorem contains_linked : (ofGraph g).linked.contains id = decide (g.Links id) := by
  rw [Bool.eq_iff_iff, decide_eq_true_iff]
  exact (contains_foldl_addEnds id g.edges ∅).trans (by simp [Graph.Links])

theorem outDegree_ofGraph : (ofGraph g).outDegree id = (g.outgoing id).length :=
  (getD_foldl_countSource id g.edges ∅).trans (by simp [Graph.outgoing])

end Survey
end Flowgraph
