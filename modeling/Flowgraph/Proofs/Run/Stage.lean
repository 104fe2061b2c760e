import Flowgraph.Run
import Mathlib.Data.List.Nodup
import Mathlib.Logic.Function.Iterate
/-!
# Stages

A run by an interpreter that knows the next node and the world, and nothing else: it counts no
rounds. A loop node passes control to the target of its first edge, as an entry or an action does.
Control is described by plain scans of the graph. `Flowgraph.Proofs.Run.Moment` shows that a run is
such a run.
-/
namespace Flowgraph
namespace Graph
variable (g : Graph)

def target? (e : Edge) : Option Node := g.node? e.target

def next? (n : Node) : Option Node := (g.outgoing n.id).head?.bind g.target?

/-- The edge by which a condition is left. One that is marked for the outcome goes first; else it is
the first edge for yes, and the second for no, if there is one. -/
def branchEdge? (n : Node) : Bool → Option Edge
  | true => ((g.outgoing n.id).find? (·.branch = some true)).or (g.outgoing n.id).head?
  | false =>
    ((g.outgoing n.id).find? (·.branch = some false)).or
      ((g.outgoing n.id)[1]?.or (g.outgoing n.id).head?)

/-- The edge by which a node is left, in the world that it found. -/
def leave? (level : Level) (n : Node) (w : World) : Option Edge :=
  match n.kind with
  | .entry | .action _ | .loop _ => (g.outgoing n.id).head?
  | .condition p => g.branchEdge? n (w.ask level p)
  | .exit => none

/-- The node that comes after a node, in the world that the node found. -/
def follow? (level : Level) (n : Node) (w : World) : Option Node :=
  match n.kind with
  | .entry | .action _ | .loop _ => g.next? n
  | .condition p => (g.branchEdge? n (w.ask level p)).bind g.target?
  | .exit => none

end Graph

/-- The world that a node leaves behind. Only an action changes it. -/
def Node.work (n : Node) (level : Level) (w : World) : World :=
  match n.action? with
  | none => w
  | some a => w.act level a

theorem Node.action?_eq_none {n : Node} (h : n.tag ≠ .action) : n.action? = none := by
  obtain ⟨id, kind, label⟩ := n
  cases kind with
  | action => exact absurd rfl h
  | entry => rfl
  | condition => rfl
  | loop => rfl
  | exit => rfl

/-- Where a run stands: the node that comes next, if any, and the world. -/
structure Stage where
  next : Option Node
  world : World
  deriving DecidableEq

/-- The node that is visited now. There is none once the world has its verdict. -/
def Stage.current? (s : Stage) : Option Node := if s.world.isTerminal then none else s.next

namespace Stage
variable {s : Stage} {n : Node}

theorem current?_eq_some_iff :
    s.current? = some n ↔ s.world.isTerminal = false ∧ s.next = some n := by
  unfold current?
  cases s.world.isTerminal <;> simp

theorem current?_eq_none_iff :
    s.current? = none ↔ s.world.isTerminal = true ∨ s.next = none := by
  unfold current?
  cases s.world.isTerminal <;> simp

theorem current?_of_terminal (h : s.world.isTerminal = true) : s.current? = none := if_pos h

end Stage

namespace Graph
variable (g : Graph) (level : Level)

def advance (s : Stage) : Stage :=
  match s.current? with
  | none => s
  | some n => ⟨g.follow? level n s.world, n.work level s.world⟩

def stage (visits : Nat) : Stage := (g.advance level)^[visits] ⟨g.entryNode?, level.start⟩

/-- The nodes of the first visits. -/
def trail (visits : Nat) : List Node :=
  (List.range visits).filterMap fun k => (g.stage level k).current?

/-- The world that a run leaves. It failed if all visits were made and there is no verdict. -/
def finalWorld (ceiling : Nat) : World :=
  if ceiling ≤ (g.trail level ceiling).length then
    (g.stage level ceiling).world.markFailed .infiniteLoop
  else (g.stage level ceiling).world

def stagedRun (ceiling : Nat) : Report :=
  match g.entryNode? with
  | none => ⟨⟨false, 0, Message.noEntry, some level.start⟩, 0, []⟩
  | some _ =>
    ⟨(g.finalWorld level ceiling).outcome level, (g.trail level ceiling).length,
      (g.trail level ceiling).map (·.id)⟩

end Graph

namespace Graph
variable {g : Graph} {level : Level} {k m : Nat}

theorem id_of_node? {id : String} {n : Node} (h : g.node? id = some n) : n.id = id := by
  simpa using List.find?_some h

theorem mem_of_node? {id : String} {n : Node} (h : g.node? id = some n) : n ∈ g.nodes :=
  List.mem_of_find?_eq_some h

theorem entryNode?_eq_find? (g : Graph) : g.entryNode? = g.nodes.find? (·.tag == .entry) :=
  List.head?_filter ..

theorem entryNode?_eq_none_of_subset {g' : Graph} (hs : ∀ n ∈ g'.nodes, n ∈ g.nodes)
    (h : g.entryNode? = none) : g'.entryNode? = none := by
  rw [entryNode?_eq_find?, List.find?_eq_none] at h ⊢
  intro n hn
  exact h n (hs n hn)

theorem mem_of_entryNode? {n : Node} (h : g.entryNode? = some n) :
    n ∈ g.nodes ∧ n.tag = .entry := by
  obtain ⟨hn, ht⟩ := List.mem_filter.mp (List.mem_of_mem_head? h)
  exact ⟨hn, by simpa using ht⟩

theorem eq_of_id (hd : (g.nodes.map (·.id)).Nodup) {n n' : Node} (hn : n ∈ g.nodes)
    (hn' : n' ∈ g.nodes) (h : n.id = n'.id) : n = n' :=
  List.inj_on_of_nodup_map hd hn hn' h

theorem node?_eq_some_iff (hd : (g.nodes.map (·.id)).Nodup) {id : String} {n : Node} :
    g.node? id = some n ↔ n ∈ g.nodes ∧ n.id = id := by
  constructor
  · intro h
    exact ⟨mem_of_node? h, id_of_node? h⟩
  · rintro ⟨hn, rfl⟩
    have hsome : (g.node? n.id).isSome = true := by
      rw [node?, List.find?_isSome]
      exact ⟨n, hn, by simp⟩
    obtain ⟨n', h⟩ := Option.isSome_iff_exists.mp hsome
    rw [h, eq_of_id hd (mem_of_node? h) hn (id_of_node? h)]

theorem node?_of_mem (hd : (g.nodes.map (·.id)).Nodup) {n : Node} (hn : n ∈ g.nodes) :
    g.node? n.id = some n :=
  (node?_eq_some_iff hd).mpr ⟨hn, rfl⟩

theorem entryNode?_of_only {n : Node} (hn : n ∈ g.nodes) (ht : n.tag = .entry)
    (only : ∀ m ∈ g.nodes, m.tag = .entry → m = n) : g.entryNode? = some n := by
  cases he : g.entryNode? with
  | none =>
    rw [entryNode?_eq_find?, List.find?_eq_none] at he
    exact absurd (beq_iff_eq.mpr ht) (he n hn)
  | some m =>
    obtain ⟨hm, htag⟩ := mem_of_entryNode? he
    rw [only m hm htag]

/-- When all edges that leave a node lead to the same one, it does not matter which is drawn first. -/
theorem next?_of_targets {n m : Node} (hm : g.node? m.id = some m)
    (some_edge : ∃ e ∈ g.edges, e.source = n.id)
    (targets : ∀ e ∈ g.edges, e.source = n.id → e.target = m.id) : g.next? n = some m := by
  obtain ⟨e, he⟩ : ∃ e, (g.outgoing n.id).head? = some e := by
    obtain ⟨e, he, hsource⟩ := some_edge
    exact ⟨_, List.head?_eq_some_head (List.ne_nil_of_mem (List.mem_filter.mpr ⟨he, by simpa⟩))⟩
  obtain ⟨hedge, hsource⟩ := List.mem_filter.mp (List.mem_of_mem_head? he)
  rw [next?, he, Option.bind_some, target?, targets e hedge (by simpa using hsource), hm]

theorem mem_of_branchEdge? {n : Node} {e : Edge} {b : Bool} (h : g.branchEdge? n b = some e) :
    e ∈ g.outgoing n.id := by
  cases b with
  | true =>
    rcases Option.or_eq_some_iff.mp h with h | ⟨-, h⟩
    · exact List.mem_of_find?_eq_some h
    · exact List.mem_of_mem_head? h
  | false =>
    rcases Option.or_eq_some_iff.mp h with h | ⟨-, h⟩
    · exact List.mem_of_find?_eq_some h
    · rcases Option.or_eq_some_iff.mp h with h | ⟨-, h⟩
      · exact List.mem_of_getElem? h
      · exact List.mem_of_mem_head? h

theorem mem_of_leave? {n : Node} {w : World} {e : Edge} (h : g.leave? level n w = some e) :
    e ∈ g.outgoing n.id := by
  obtain ⟨id, kind, label⟩ := n
  cases kind with
  | entry => exact List.mem_of_mem_head? h
  | action => exact List.mem_of_mem_head? h
  | condition => exact mem_of_branchEdge? h
  | loop => exact List.mem_of_mem_head? h
  | exit => cases h

theorem leave?_congr {g' : Graph} {n : Node} (h : g'.outgoing n.id = g.outgoing n.id)
    (level : Level) (w : World) : g'.leave? level n w = g.leave? level n w := by
  have hbranch : ∀ b, g'.branchEdge? n b = g.branchEdge? n b := by
    intro b
    cases b with
    | true => simp only [branchEdge?, h]
    | false => simp only [branchEdge?, h]
  unfold leave?
  cases n.kind with
  | entry => rw [h]
  | action => rw [h]
  | condition p => exact hbranch _
  | loop => rw [h]
  | exit => rfl

theorem follow?_eq_leave? (g : Graph) (level : Level) (n : Node) (w : World) :
    g.follow? level n w = (g.leave? level n w).bind g.target? := by
  unfold follow? leave?
  cases n.kind <;> rfl

theorem exists_edge_of_follow? {n m : Node} {w : World} (h : g.follow? level n w = some m) :
    ∃ e ∈ g.edges, g.leave? level n w = some e ∧ g.node? e.target = some m := by
  rw [follow?_eq_leave?] at h
  obtain ⟨e, he, ht⟩ := Option.bind_eq_some_iff.mp h
  exact ⟨e, (List.mem_filter.mp (mem_of_leave? he)).1, he, ht⟩

theorem advance_of_current {s : Stage} {n : Node} (h : s.current? = some n) :
    g.advance level s = ⟨g.follow? level n s.world, n.work level s.world⟩ := by
  simp only [advance, h]

theorem advance_of_over {s : Stage} (h : s.current? = none) : g.advance level s = s := by
  simp only [advance, h]

theorem stage_succ (g : Graph) (level : Level) (k : Nat) :
    g.stage level (k + 1) = g.advance level (g.stage level k) :=
  Function.iterate_succ_apply' ..

theorem first_or_followed {n : Node} (h : (g.stage level k).current? = some n) :
    k = 0 ∧ g.entryNode? = some n ∨
      ∃ j n', k = j + 1 ∧ (g.stage level j).current? = some n' ∧
        g.follow? level n' (g.stage level j).world = some n ∧
        (g.stage level k).world = n'.work level (g.stage level j).world := by
  cases k with
  | zero => exact Or.inl ⟨rfl, (Stage.current?_eq_some_iff.mp h).2⟩
  | succ j =>
    rw [stage_succ] at h ⊢
    cases hc : (g.stage level j).current? with
    | none =>
      rw [advance_of_over hc, hc] at h
      cases h
    | some n' =>
      rw [advance_of_current hc] at h ⊢
      exact Or.inr ⟨j, n', rfl, hc, (Stage.current?_eq_some_iff.mp h).2, rfl⟩

theorem trail_succ (g : Graph) (level : Level) (k : Nat) :
    g.trail level (k + 1) = g.trail level k ++ (g.stage level k).current?.toList := by
  simp only [trail, List.range_succ, List.filterMap_append]
  cases hc : (g.stage level k).current? <;> simp [hc]

theorem stage_of_over (h : (g.stage level m).current? = none) (hk : m ≤ k) :
    g.stage level k = g.stage level m := by
  induction hk with
  | refl => rfl
  | step _ ih => rw [stage_succ, ih, advance_of_over h]

theorem trail_of_over (h : (g.stage level m).current? = none) (hk : m ≤ k) :
    g.trail level k = g.trail level m := by
  induction hk with
  | refl => rfl
  | step hk ih => rw [trail_succ, ih, stage_of_over h hk, h, Option.toList_none, List.append_nil]

theorem length_trail_or_over (g : Graph) (level : Level) (k : Nat) :
    (g.trail level k).length = k ∨
      (g.trail level k).length < k ∧
        (g.stage level (g.trail level k).length).current? = none := by
  induction k with
  | zero => exact Or.inl rfl
  | succ k ih =>
    rcases ih with hk | ⟨hk, ho⟩
    · cases hc : (g.stage level k).current? with
      | some n => exact Or.inl (by simp [trail_succ, hk, hc])
      | none => exact Or.inr (by simp [trail_succ, hk, hc])
    · have ht := trail_of_over ho (Nat.le_of_lt (Nat.lt_succ_of_lt hk))
      have hl := trail_of_over ho (Nat.le_of_lt hk)
      rw [ht, ← hl]
      exact Or.inr ⟨Nat.lt_succ_of_lt hk, ho⟩

theorem length_trail_le (g : Graph) (level : Level) (k : Nat) :
    (g.trail level k).length ≤ k := by
  rcases length_trail_or_over g level k with h | ⟨h, -⟩ <;> omega

theorem stage_length_trail (g : Graph) (level : Level) (k : Nat) :
    g.stage level (g.trail level k).length = g.stage level k := by
  rcases length_trail_or_over g level k with h | ⟨h, ho⟩
  · rw [h]
  · exact (stage_of_over ho (Nat.le_of_lt h)).symm

theorem length_trail_of_current {n : Node} (h : (g.stage level k).current? = some n) :
    (g.trail level k).length = k := by
  rcases length_trail_or_over g level k with hk | ⟨-, ho⟩
  · exact hk
  · rw [stage_length_trail, h] at ho
    cases ho

theorem lt_length_trail {n : Node} (h : (g.stage level k).current? = some n) (hk : k < m) :
    k < (g.trail level m).length := by
  rcases length_trail_or_over g level m with hl | ⟨-, ho⟩
  · rwa [hl]
  · refine Nat.lt_of_not_le fun hle => ?_
    rw [stage_of_over ho hle, ho] at h
    cases h

theorem getElem?_trail {i : Nat} (hi : i < (g.trail level k).length) :
    (g.trail level k)[i]? = (g.stage level i).current? := by
  induction k with
  | zero => simp [trail] at hi
  | succ k ih =>
    rw [trail_succ]
    by_cases hik : i < (g.trail level k).length
    · rw [List.getElem?_append_left hik]
      exact ih hik
    · cases hc : (g.stage level k).current? with
      | none => simp [trail_succ, hc] at hi; omega
      | some n =>
        have hk := length_trail_of_current hc
        obtain rfl : i = k := by simp [trail_succ, hc] at hi; omega
        simp [hk, hc]

theorem finalWorld_cases (g : Graph) (level : Level) (ceiling : Nat) :
    g.finalWorld level ceiling = (g.stage level ceiling).world ∨
      g.finalWorld level ceiling = (g.stage level ceiling).world.markFailed .infiniteLoop := by
  by_cases hc : ceiling ≤ (g.trail level ceiling).length
  · exact Or.inr (if_pos hc)
  · exact Or.inl (if_neg hc)

theorem finalWorld_of_terminal (h : (g.stage level k).world.isTerminal = true) :
    g.finalWorld level k = (g.stage level k).world := by
  rcases finalWorld_cases g level k with hf | hf
  · exact hf
  · rw [hf, World.markFailed, if_pos h]

end Graph
end Flowgraph
