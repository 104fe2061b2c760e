import Flowgraph.Index
/-!
# Reach

The nodes that can be reached from the entry node, breadth first. Edges are followed in the order in
which they were drawn and each id is listed once. This is a listing for the editor: loops and
conditions are not interpreted.
-/
namespace Flowgraph

/-- The nodes that were not met yet, by id. -/
abbrev Unmet := Std.TreeMap String Node

namespace Unmet

/-- The unmet nodes that some edges lead to, each once, and what is left unmet. -/
def meet (u : Unmet) : List Edge → List Node × Unmet
  | [] => ([], u)
  | e :: es =>
    match u[e.target]? with
    | none => meet u es
    | some n =>
      let (met, rest) := meet (u.erase e.target) es
      (n :: met, rest)

theorem size_meet (u : Unmet) (es : List Edge) :
    (u.meet es).1.length + (u.meet es).2.size = u.size := by
  induction es generalizing u with
  | nil => simp [meet]
  | cons e es ih =>
    unfold meet
    split
    · exact ih u
    · next n h =>
      have hc : u.contains e.target := by
        rw [Std.TreeMap.contains_eq_isSome_getElem?, h]; rfl
      have hs : u.size ≠ 0 := by
        intro h0
        have he : u.isEmpty := by rw [Std.TreeMap.isEmpty_eq_size_eq_zero, h0]; rfl
        simp [Std.TreeMap.contains_of_isEmpty he] at hc
      have := ih (u.erase e.target)
      rw [Std.TreeMap.size_erase, if_pos hc] at this
      simp only [List.length_cons]
      omega

end Unmet

namespace Index
variable (ix : Index)

/-- Lists a queue of nodes, and after them what they lead to. -/
def spread (u : Unmet) : (queue : List Node) → List Node
  | [] => []
  | n :: queue =>
    n :: spread (u.meet (ix.outgoing n.id)).2 (queue ++ (u.meet (ix.outgoing n.id)).1)
termination_by queue => u.size + queue.length
decreasing_by
  have := u.size_meet (ix.outgoing n.id)
  simp only [List.length_append, List.length_cons]
  omega

def reach : List Node :=
  match ix.entryNode? with
  | none => []
  | some e => ix.spread (ix.nodes.erase e.id) [e]

end Index

/-- The nodes that can be reached from the entry node, breadth first. -/
def Graph.reach (g : Graph) : List Node := (Index.ofGraph g).reach

end Flowgraph
