import Flowgraph.Proofs.Run.Mirror
/-!
# Rounds

How many rounds a loop has is not seen in a report. A run is the run of stages, which knows no
rounds, and a change of the nodes that keeps their ids, their actions and where they lead is mirrored
by it.
-/
namespace Flowgraph

namespace Graph

/-- A change of the nodes of `g` that makes `g'` of it, and that control does not notice. -/
structure Unnoticed (g g' : Graph) (f : Node → Node) : Prop where
  entry : g'.entryNode? = g.entryNode?.map f
  follow : ∀ level n w, g'.follow? level (f n) w = (g.follow? level n w).map f
  action : ∀ n, (f n).action? = n.action?
  id : ∀ n, (f n).id = n.id

variable {g g' : Graph} {f : Node → Node} {level : Level}

theorem Unnoticed.mirrors (h : Unnoticed g g' f) (level : Level) :
    Mirrors g g' level level (fun n n' => n' = f n) (fun w w' => w' = w) := by
  apply Mirrors.of_nodes
  · rw [h.entry]
    exact rel_map (R := fun n n' => n' = f n) (fun _ => rfl) g.entryNode?
  · rintro n _ w rfl
    rw [h.follow]
    exact rel_map (R := fun n n' => n' = f n) (fun _ => rfl) (g.follow? level n w)
  · rintro n _ rfl
    exact h.action n

theorem Unnoticed.run (h : Unnoticed g g' f) (level : Level) (ceiling : Nat) :
    g'.run level ceiling = g.run level ceiling := by
  have hids : ∀ n n', n' = f n → n'.id = n.id := by
    rintro n _ rfl
    exact h.id n
  have hrun := (h.mirrors level).run (f := fun id => id) hids ceiling
  rwa [List.map_id'] at hrun

end Graph

/-- A loop node with another number of rounds. Other nodes have none. -/
def Node.withRounds (n : Node) (rounds : Rounds) : Node :=
  match n.kind with
  | .loop _ => { n with kind := .loop rounds }
  | _ => n

def Node.once (n : Node) : Node := n.withRounds { count := 1 }

/-- A graph whose loops have other numbers of rounds, chosen for each declaration. -/
def Graph.recount (g : Graph) (rounds : Nat → Rounds) : Graph :=
  { g with nodes := g.nodes.mapIdx fun i n => n.withRounds (rounds i) }

namespace Node
variable (n : Node) (r : Rounds)

theorem withRounds_id : (n.withRounds r).id = n.id := by
  unfold withRounds
  split <;> rfl

theorem withRounds_tag : (n.withRounds r).tag = n.tag := by
  unfold withRounds
  split
  · next h => simp only [tag, h, Kind.tag]
  · rfl

theorem withRounds_action : (n.withRounds r).action? = n.action? := by
  unfold withRounds
  split
  · next h => simp only [action?, h]
  · rfl

theorem once_withRounds : (n.withRounds r).once = n.once := by
  obtain ⟨id, kind, label⟩ := n
  cases kind <;> rfl

end Node

namespace Graph
variable (g : Graph)

def once : Graph := { g with nodes := g.nodes.map Node.once }

theorem recount_once (rounds : Nat → Rounds) : (g.recount rounds).once = g.once := by
  have hn : (g.nodes.mapIdx fun i n => n.withRounds (rounds i)).map Node.once =
      g.nodes.map Node.once := by
    apply List.ext_getElem?
    intro i
    simp only [List.getElem?_map, List.getElem?_mapIdx, Option.map_map, Function.comp_def,
      Node.once_withRounds]
  simp only [recount, once, hn]

theorem target?_once (e : Edge) : g.once.target? e = (g.target? e).map Node.once := by
  simp only [target?, node?, once, List.find?_map, Function.comp_def, Node.once,
    Node.withRounds_id]

theorem leave?_once (level : Level) (n : Node) (w : World) :
    g.once.leave? level n.once w = g.leave? level n w := by
  obtain ⟨id, kind, label⟩ := n
  cases kind <;> rfl

theorem follow?_once (level : Level) (n : Node) (w : World) :
    g.once.follow? level n.once w = (g.follow? level n w).map Node.once := by
  rw [follow?_eq_leave?, follow?_eq_leave?, leave?_once, funext g.target?_once, Option.map_bind]
  rfl

theorem once_unnoticed : Unnoticed g g.once Node.once where
  entry := by
    simp only [entryNode?, nodesOf, once, List.filter_map, Function.comp_def, Node.once,
      Node.withRounds_tag, List.head?_map]
  follow := g.follow?_once
  action n := n.withRounds_action _
  id n := n.withRounds_id _

/-- A run is the run of an interpreter without loops to keep, and shows no count of rounds: any other
counts give the same report. -/
theorem run_regardless_of_rounds (level : Level) (ceiling : Nat) :
    g.run level ceiling = g.stagedRun level ceiling ∧
      ∀ rounds : Nat → Rounds, (g.recount rounds).run level ceiling = g.run level ceiling := by
  refine ⟨run_eq_stagedRun g level ceiling, fun rounds => ?_⟩
  rw [← (g.recount rounds).once_unnoticed.run, recount_once, g.once_unnoticed.run]

end Graph
end Flowgraph
