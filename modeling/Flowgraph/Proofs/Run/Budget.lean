import Flowgraph.Proofs.Run.Ceiling
import Flowgraph.Proofs.Run.Ending
/-!
# Smaller and larger budgets

Two runs whose levels differ in the budget of actions go in step. That lasts until an action spends
the smaller budget: the run under it stops there, and the other one goes on. The goal and a blocked
move are settled before the budget is looked at, so neither is changed by it.
-/
namespace Flowgraph

def Level.withBudget (l : Level) (maxSteps : UInt32) : Level := { l with maxSteps := maxSteps }

namespace World
variable {m m' : UInt32}

theorem settle_withBudget (hm : m ≤ m') (level : Level) (w : World) :
    (w.settle (level.withBudget m)).failureReason = some .maxSteps ∨
      w.settle (level.withBudget m') = w.settle (level.withBudget m) := by
  have hle : m.toNat ≤ m'.toNat := UInt32.le_iff_toNat_le.mp hm
  by_cases hf : w.isFailed = true
  · have h : ∀ l, w.settle l = w := fun l => if_pos hf
    exact Or.inr (by rw [h, h])
  by_cases hg : w.character.position = level.goalPosition
  · have h : ∀ b, w.settle (level.withBudget b) = w.markComplete :=
      fun b => (if_neg hf).trans (if_pos hg)
    exact Or.inr (by rw [h, h])
  have h : ∀ b : UInt32, w.settle (level.withBudget b) =
      if b.toNat ≤ w.stepCount then w.markFailed .maxSteps else w :=
    fun b => (if_neg hf).trans (if_neg hg)
  rw [h, h]
  by_cases hs : m.toNat ≤ w.stepCount
  · rw [if_pos hs]
    by_cases ht : w.isTerminal = true
    · right
      rw [markFailed, if_pos ht, ite_self]
    · left
      rw [markFailed_of_open (Bool.eq_false_iff.mpr ht)]
  · right
    rw [if_neg hs, if_neg (by omega)]

theorem act_withBudget (hm : m ≤ m') (level : Level) (w : World) (a : ActionKey) :
    (w.act (level.withBudget m) a).failureReason = some .maxSteps ∨
      w.act (level.withBudget m') a = w.act (level.withBudget m) a := by
  rw [act_eq_settle, act_eq_settle]
  exact settle_withBudget hm level (w.attempt a)

end World

namespace Graph
variable {g : Graph} {level : Level} {m m' : UInt32} {c k : Nat}

theorem follow?_withBudget (g : Graph) (level : Level) (m m' : UInt32) (n : Node) (w : World) :
    g.follow? (level.withBudget m') n w = g.follow? (level.withBudget m) n w := rfl

/-- The smaller budget stopped the run, and the larger one repeats what there was of it. -/
structure StoppedShort (g : Graph) (level : Level) (m m' : UInt32) (k : Nat) : Prop where
  reason : (g.stage (level.withBudget m) k).world.failureReason = some .maxSteps
  trail : g.trail (level.withBudget m) k <+: g.trail (level.withBudget m') k

theorem StoppedShort.terminal (h : StoppedShort g level m m' k) :
    (g.stage (level.withBudget m) k).world.isTerminal = true := by
  have hf : (g.stage (level.withBudget m) k).world.isFailed = true := by
    rw [← (stage_sound g _ k).reason, h.reason]
    rfl
  exact World.isTerminal_of_failed hf

theorem StoppedShort.succ (h : StoppedShort g level m m' k) :
    StoppedShort g level m m' (k + 1) := by
  have ho := Stage.current?_of_terminal h.terminal
  constructor
  · rw [stage_of_over ho (Nat.le_succ k)]
    exact h.reason
  · rw [trail_of_over ho (Nat.le_succ k), trail_succ]
    exact h.trail.trans (List.prefix_append _ _)

/-- Nothing shows yet which of the two budgets the run has. -/
structure Undivided (g : Graph) (level : Level) (m m' : UInt32) (k : Nat) : Prop where
  stage : g.stage (level.withBudget m') k = g.stage (level.withBudget m) k
  trail : g.trail (level.withBudget m') k = g.trail (level.withBudget m) k

theorem Undivided.succ (hm : m ≤ m') (h : Undivided g level m m' k) :
    StoppedShort g level m m' (k + 1) ∨ Undivided g level m m' (k + 1) := by
  obtain ⟨hs, ht⟩ := h
  have htrail : g.trail (level.withBudget m') (k + 1) = g.trail (level.withBudget m) (k + 1) := by
    rw [trail_succ, trail_succ, hs, ht]
  cases hc : (g.stage (level.withBudget m) k).current? with
  | none =>
    refine Or.inr ⟨?_, htrail⟩
    rw [stage_succ, stage_succ, hs, advance_of_over hc, advance_of_over hc]
  | some n =>
    have hn := (stage_succ g (level.withBudget m) k).trans (advance_of_current hc)
    have hn' := stage_succ g (level.withBudget m') k
    rw [hs, advance_of_current hc, follow?_withBudget g level m m'] at hn'
    cases ha : n.action? with
    | none =>
      refine Or.inr ⟨?_, htrail⟩
      rw [hn, hn', Node.work_of_no_action ha, Node.work_of_no_action ha]
    | some a =>
      rw [Node.work_of_action ha] at hn hn'
      rcases World.act_withBudget hm level (g.stage (level.withBudget m) k).world a with hr | he
      · refine Or.inl ⟨?_, htrail ▸ List.prefix_rfl⟩
        rw [hn]
        exact hr
      · refine Or.inr ⟨?_, htrail⟩
        rw [hn, hn', he]

theorem stoppedShort_or_undivided (g : Graph) (level : Level) (hm : m ≤ m') (k : Nat) :
    StoppedShort g level m m' k ∨ Undivided g level m m' k := by
  induction k with
  | zero => exact Or.inr ⟨rfl, rfl⟩
  | succ k ih =>
    rcases ih with hs | hu
    · exact Or.inl hs.succ
    · exact hu.succ hm

/-- A run under a larger budget starts as the run under the smaller one, and is the same unless the
smaller budget was spent. -/
theorem run_of_larger_budget (g : Graph) (level : Level) (ceiling : Nat) (hm : m ≤ m') :
    (g.run (level.withBudget m) ceiling).visited <+:
        (g.run (level.withBudget m') ceiling).visited ∧
      ((g.run (level.withBudget m) ceiling).outcome.failureReason ≠ some .maxSteps →
        (g.run (level.withBudget m') ceiling).visited =
            (g.run (level.withBudget m) ceiling).visited ∧
          (g.run (level.withBudget m') ceiling).executionSteps =
            (g.run (level.withBudget m) ceiling).executionSteps ∧
          (g.run (level.withBudget m') ceiling).outcome.finalState =
            (g.run (level.withBudget m) ceiling).outcome.finalState ∧
          (g.run (level.withBudget m') ceiling).outcome.success =
            (g.run (level.withBudget m) ceiling).outcome.success ∧
          (g.run (level.withBudget m') ceiling).outcome.stepCount =
            (g.run (level.withBudget m) ceiling).outcome.stepCount) := by
  have hcourse := stoppedShort_or_undivided g level hm ceiling
  constructor
  · rw [(run_trace g _ ceiling).2, (run_trace g _ ceiling).2]
    apply List.IsPrefix.map
    rcases hcourse with hs | hu
    · exact hs.trail
    · exact hu.trail ▸ List.prefix_rfl
  · intro hne
    cases he : g.entryNode? with
    | none =>
      rw [run_of_no_entry he, run_of_no_entry he]
      exact ⟨rfl, rfl, rfl, rfl, rfl⟩
    | some entry =>
      rw [run_of_entry he] at hne
      rw [run_of_entry he, run_of_entry he]
      have hu : Undivided g level m m' ceiling := by
        refine hcourse.resolve_left fun hs => hne ?_
        rw [outcome_failureReason, finalWorld_of_terminal hs.terminal]
        exact hs.reason
      have hw : g.finalWorld (level.withBudget m') ceiling =
          g.finalWorld (level.withBudget m) ceiling := by
        rw [finalWorld, finalWorld, hu.trail, hu.stage]
      rw [hu.trail, hw]
      exact ⟨rfl, rfl, rfl, rfl, rfl⟩

def marching : Graph where
  nodes := [{ id := "in", kind := .entry }, { id := "go", kind := .action (some (.known .move)) }]
  edges := [⟨"1", "in", "go", none⟩, ⟨"2", "go", "go", none⟩]

/-- The goal is two moves away. A budget of one stops the run short, and what is left is not used. -/
theorem marching_on_budgets :
    (1 : UInt32) ≤ 2 ∧ (2 : UInt32) ≤ 9 ∧
      (marching.run (shortStay.withBudget 1) 9).visited = ["in", "go"] ∧
      (marching.run (shortStay.withBudget 1) 9).visited <+:
        (marching.run (shortStay.withBudget 2) 9).visited ∧
      (marching.run (shortStay.withBudget 2) 9).outcome.failureReason ≠ some .maxSteps ∧
      (marching.run (shortStay.withBudget 2) 9).outcome.success = true ∧
      (marching.run (shortStay.withBudget 9) 9).outcome.success =
        (marching.run (shortStay.withBudget 2) 9).outcome.success := by
  have hv : (marching.run (shortStay.withBudget 1) 9).visited = ["in", "go"] := by
    rw [run_eq_stagedRun]
    decide
  have hr : (marching.run (shortStay.withBudget 2) 9).outcome.failureReason ≠ some .maxSteps := by
    rw [run_eq_stagedRun]
    decide
  have hs : (marching.run (shortStay.withBudget 2) 9).outcome.success = true := by
    rw [run_eq_stagedRun]
    decide
  obtain ⟨hbegins, -⟩ :=
    run_of_larger_budget marching shortStay 9 (show (1 : UInt32) ≤ 2 by decide)
  obtain ⟨-, hsame⟩ :=
    run_of_larger_budget marching shortStay 9 (show (2 : UInt32) ≤ 9 by decide)
  obtain ⟨-, -, -, hsuccess, -⟩ := hsame hr
  exact ⟨by decide, by decide, hv, hbegins, hr, hs, hsuccess⟩

end Graph
end Flowgraph
