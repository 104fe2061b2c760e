import Flowgraph.Proofs.Run.Stage
import Flowgraph.Proofs.World.Act
/-!
# What the worlds of a run keep

Only actions change the world of a run, and they act before there is a verdict. What the start has
and such an action keeps, every world of the run has.
-/
namespace Flowgraph

/-- The most actions that a run takes. A budget of zero lets the first one happen. -/
def Level.budget (l : Level) : Nat := max l.maxSteps.toNat 1

/-- While there is no verdict there is budget left, and a verdict is not passed beyond it. -/
structure World.WithinBudget (level : Level) (w : World) : Prop where
  spent : w.stepCount ≤ level.budget
  left : w.isTerminal = false → w.stepCount < level.budget

namespace World
variable {level : Level} {w : World}

theorem start_withinBudget (level : Level) : WithinBudget level level.start := by
  have hb : 0 < level.budget := by unfold Level.budget; omega
  exact ⟨Nat.zero_le _, fun _ => hb⟩

theorem WithinBudget.act (h : WithinBudget level w) (hw : w.isTerminal = false) (a : ActionKey) :
    WithinBudget level (w.act level a) := by
  have hl := h.left hw
  refine ⟨by rw [act_stepCount]; omega, fun ht => ?_⟩
  have he := act_effect level a hw
  rw [act_stepCount]
  generalize w.act level a = v at he ht
  cases he with
  | blocked => simp [isTerminal] at ht
  | reached => simp [isTerminal] at ht
  | spent => simp [isTerminal] at ht
  | going _ _ hm => unfold Level.budget; omega

end World

namespace Node
variable {n : Node} {level : Level} {w : World} {a : ActionKey}

theorem work_of_action (h : n.action? = some a) : n.work level w = w.act level a := by
  simp only [work, h]

theorem work_of_no_action (h : n.action? = none) : n.work level w = w := by
  simp only [work, h]

theorem work_stepCount (n : Node) (level : Level) (w : World) :
    (n.work level w).stepCount = w.stepCount + n.action?.toList.length := by
  cases h : n.action? with
  | none => rw [work_of_no_action h]; rfl
  | some a => rw [work_of_action h, World.act_stepCount]; rfl

end Node

namespace Graph
variable {g : Graph} {level : Level} {n : Node} {k m : Nat}

theorem world_induction {P : World → Prop} (start : P level.start)
    (act : ∀ w a, w.isTerminal = false → P w → P (w.act level a)) (k : Nat) :
    P (g.stage level k).world := by
  induction k with
  | zero => exact start
  | succ k ih =>
    rw [stage_succ]
    cases hc : (g.stage level k).current? with
    | none => rwa [advance_of_over hc]
    | some n =>
      rw [advance_of_current hc]
      cases ha : n.action? with
      | none => rwa [Node.work_of_no_action ha]
      | some a =>
        rw [Node.work_of_action ha]
        exact act _ a (Stage.current?_eq_some_iff.mp hc).1 ih

theorem stage_sound (g : Graph) (level : Level) (k : Nat) : (g.stage level k).world.Sound :=
  world_induction (World.start_sound level) (fun _ a _ h => h.act level a) k

theorem stage_grid (g : Graph) (level : Level) (k : Nat) :
    (g.stage level k).world.grid = level.grid :=
  world_induction (P := fun w => w.grid = level.grid) rfl
    (fun w a _ h => (World.act_grid w level a).trans h) k

theorem stage_withinBudget (g : Graph) (level : Level) (k : Nat) :
    (g.stage level k).world.WithinBudget level :=
  world_induction (World.start_withinBudget level) (fun _ a hw h => h.act hw a) k

theorem mem_of_follow? {w : World} {n' : Node} (h : g.follow? level n w = some n') :
    n' ∈ g.nodes := by
  obtain ⟨e, -, -, ht⟩ := exists_edge_of_follow? h
  exact mem_of_node? ht

theorem follow?_work (g : Graph) (level : Level) (n : Node) (w : World) :
    g.follow? level n (n.work level w) = g.follow? level n w := by
  obtain ⟨id, kind, label⟩ := n
  cases kind <;> rfl

theorem mem_of_next (h : (g.stage level k).next = some n) : n ∈ g.nodes := by
  induction k generalizing n with
  | zero => exact (List.mem_filter.mp (List.mem_of_mem_head? h)).1
  | succ k ih =>
    rw [stage_succ] at h
    cases hc : (g.stage level k).current? with
    | none =>
      rw [advance_of_over hc] at h
      exact ih h
    | some n' =>
      rw [advance_of_current hc] at h
      exact mem_of_follow? h

theorem mem_of_current (h : (g.stage level k).current? = some n) : n ∈ g.nodes :=
  mem_of_next (Stage.current?_eq_some_iff.mp h).2

end Graph
end Flowgraph
