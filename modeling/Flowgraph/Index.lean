import Std.Data.TreeMap
import Flowgraph.Graph
/-!
# Index

Id lookups over a graph, built once. When an id repeats, the first declaration is found. The edges
that leave an id keep the order in which they were drawn, so that "the first edge" means the one
drawn first. `node?_ofGraph`, `outgoing_ofGraph` and `entryNode?_ofGraph` say that this is what plain
scans of the graph would find.
-/
namespace Flowgraph

structure Index where
  nodes : Std.TreeMap String Node := ∅
  edges : Std.TreeMap String (Array Edge) := ∅
  entryNode? : Option Node := none

namespace Index

def declare (m : Std.TreeMap String Node) (n : Node) : Std.TreeMap String Node :=
  m.insertIfNew n.id n

def gather (m : Std.TreeMap String (Array Edge)) (e : Edge) : Std.TreeMap String (Array Edge) :=
  m.insert e.source ((m.getD e.source #[]).push e)

def ofGraph (g : Graph) : Index where
  nodes := g.nodes.foldl declare ∅
  edges := g.edges.foldl gather ∅
  entryNode? := g.nodes.find? (·.tag == .entry)

section
variable (ix : Index)

def node? (id : String) : Option Node := ix.nodes[id]?

def outgoing (id : String) : List Edge := (ix.edges.getD id #[]).toList

def target? (e : Edge) : Option Node := ix.node? e.target

/-- Where the first outgoing edge leads. -/
def next? (n : Node) : Option Node := (ix.outgoing n.id).head?.bind ix.target?

/-- The edge for a side of a condition that no edge is marked for: the first edge for yes, the
second for no, or the first again when there is no second. -/
def positional? (edges : List Edge) : Bool → Option Edge
  | true => edges.head?
  | false => edges[1]?.or edges.head?

/-- Where a condition leads. An edge that is marked for the outcome wins. -/
def branch? (n : Node) (outcome : Bool) : Option Node :=
  let edges := ix.outgoing n.id
  ((edges.find? (·.branch = some outcome)).or (positional? edges outcome)).bind ix.target?

end

theorem getElem?_foldl_declare (ns : List Node) (m : Std.TreeMap String Node) (id : String) :
    (ns.foldl declare m)[id]? = m[id]?.or (ns.find? (·.id == id)) := by
  induction ns generalizing m with
  | nil => simp
  | cons n ns ih =>
    rw [List.foldl_cons, ih, declare, Std.TreeMap.getElem?_insertIfNew]
    by_cases h : n.id = id
    · subst h
      cases hm : m[n.id]? <;> simp [hm, Std.TreeMap.mem_iff_isSome_getElem?]
    · simp [h, Std.LawfulEqCmp.compare_eq_iff_eq]

theorem getD_foldl_gather (es : List Edge) (m : Std.TreeMap String (Array Edge)) (id : String) :
    ((es.foldl gather m).getD id #[]).toList =
      (m.getD id #[]).toList ++ es.filter (·.source == id) := by
  induction es generalizing m with
  | nil => simp
  | cons e es ih =>
    rw [List.foldl_cons, ih, gather, Std.TreeMap.getD_insert]
    by_cases h : e.source = id
    · subst h; simp
    · simp [h, Std.LawfulEqCmp.compare_eq_iff_eq]

variable (g : Graph)

@[simp] theorem node?_ofGraph (id : String) : (ofGraph g).node? id = g.node? id := by
  simp [node?, ofGraph, Graph.node?, getElem?_foldl_declare]

@[simp] theorem outgoing_ofGraph (id : String) : (ofGraph g).outgoing id = g.outgoing id := by
  simp [outgoing, ofGraph, Graph.outgoing, getD_foldl_gather]

@[simp] theorem entryNode?_ofGraph : (ofGraph g).entryNode? = g.entryNode? := by
  simp [ofGraph, Graph.entryNode?, Graph.nodesOf, List.head?_filter]

end Index
end Flowgraph
