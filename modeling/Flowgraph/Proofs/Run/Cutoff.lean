import Flowgraph.Proofs.Run.Ceiling
import Flowgraph.Proofs.Run.Ending
/-!
# Smaller and larger ceilings

A run under a ceiling is the beginning of the run under any larger one. It is the whole of it when it
ends by itself: with a visit to spare, or with a verdict, even if that falls on the last visit.
-/
namespace Flowgraph

/-- A success, or a failure that is not the work of the ceiling. -/
def Report.Decided (r : Report) : Prop :=
  r.outcome.success = true ∨
    ∃ reason, r.outcome.failureReason = some reason ∧ reason ≠ .infiniteLoop

theorem World.Sound.terminal_of_decided {w : World} (h : w.Sound)
    (hd : w.isComplete = true ∨ ∃ r, w.failureReason = some r ∧ r ≠ .infiniteLoop) :
    w.isTerminal = true ∧ w.failureReason ≠ some .infiniteLoop := by
  rcases hd with hc | ⟨r, hr, hne⟩
  · refine ⟨isTerminal_of_complete hc, fun hr => ?_⟩
    rw [h.not_complete hr] at hc
    cases hc
  · have hf : w.isFailed = true := by rw [← h.reason, hr]; rfl
    exact ⟨isTerminal_of_failed hf, by simp [hr, hne]⟩

namespace Graph
variable {g : Graph} {level : Level} {c d : Nat}

theorem take_trail (g : Graph) (level : Level) (hcd : c ≤ d) :
    (g.trail level d).take c = g.trail level c := by
  induction hcd with
  | refl => exact List.take_of_length_le (length_trail_le g level c)
  | @step d hcd ih =>
    rw [trail_succ]
    rcases length_trail_or_over g level d with hl | ⟨-, ho⟩
    · rw [List.take_append_of_le_length (by rw [hl]; exact hcd), ih]
    · rw [stage_length_trail] at ho
      rw [ho, Option.toList_none, List.append_nil, ih]

theorem ends_of_not_calledOff
    (h : (g.finalWorld level c).failureReason ≠ some .infiniteLoop) : g.Ends level c := by
  by_cases hl : c ≤ (g.trail level c).length
  · refine Or.inr (Bool.not_eq_false _ ▸ fun ht => h ?_)
    rw [Graph.finalWorld, if_pos hl, World.markFailed_of_open ht]
  · exact Or.inl (Nat.lt_of_not_le hl)

theorem ends_of_larger (hcd : c ≤ d)
    (h : (g.trail level d).length < c ∨ (g.trail level d).length ≤ c ∧
      (g.stage level d).world.isTerminal = true) : g.Ends level c := by
  rcases h with hl | ⟨hl, ht⟩
  · left
    rw [← take_trail g level hcd]
    exact (List.length_take_le' c _).trans_lt hl
  · right
    have ho : (g.stage level (g.trail level d).length).current? = none := by
      rw [stage_length_trail]
      exact Stage.current?_of_terminal ht
    rwa [stage_of_over ho hl, stage_length_trail]

theorem run_stepCount (g : Graph) (level : Level) (c : Nat) :
    (g.run level c).outcome.stepCount = (g.stage level c).world.stepCount := by
  cases he : g.entryNode? with
  | none =>
    rw [run_of_no_entry he, stage_of_over (over_of_no_entry he level 0) (Nat.zero_le c)]
    rfl
  | some entry =>
    rw [run_of_entry he]
    exact (finalWorld_scene g level c).stepCount

/-- Under a smaller ceiling a run is the beginning of what it is under a larger one, and takes no more
steps. The reports are the same if the smaller ceiling did not stop the run, and also if the larger
one shows that fewer visits were enough, or as many with a verdict. -/
theorem run_of_smaller_ceiling (g : Graph) (level : Level) {c₁ c₂ : Nat} (hc : c₁ ≤ c₂) :
    (g.run level c₁).visited = (g.run level c₂).visited.take c₁ ∧
      (g.run level c₁).outcome.stepCount ≤ (g.run level c₂).outcome.stepCount ∧
      ((g.run level c₁).outcome.failureReason ≠ some .infiniteLoop →
        g.run level c₁ = g.run level c₂) ∧
      ((g.run level c₂).executionSteps < c₁ ∨
          (g.run level c₂).executionSteps ≤ c₁ ∧ (g.run level c₂).Decided →
        g.run level c₁ = g.run level c₂) := by
  refine ⟨?_, ?_, ?_, ?_⟩
  · rw [(run_trace g level c₁).2, (run_trace g level c₂).2, ← List.map_take,
      take_trail g level hc]
  · rw [run_stepCount, run_stepCount]
    exact stepCount_mono g level hc
  · intro h
    cases he : g.entryNode? with
    | none => rw [run_of_no_entry he, run_of_no_entry he]
    | some entry =>
      rw [run_of_entry he] at h
      exact ((ends_of_not_calledOff h).run hc).symm
  · intro h
    cases he : g.entryNode? with
    | none => rw [run_of_no_entry he, run_of_no_entry he]
    | some entry =>
      refine ((ends_of_larger hc ?_).run hc).symm
      rw [run_of_entry he] at h
      refine h.imp_right fun ⟨hl, hd⟩ => ⟨hl, ?_⟩
      obtain ⟨ht, hn⟩ := (finalWorld_sound g level c₂).terminal_of_decided hd
      rwa [(ends_of_not_calledOff hn).finalWorld] at ht

/-- The budget is overspent on the second visit, so that two visits are as good as five. -/
theorem leaving_cut :
    1 ≤ 5 ∧ 2 ≤ 5 ∧
      (leaving.run nook 1).visited = (leaving.run nook 5).visited.take 1 ∧
      (leaving.run nook 1).outcome.failureReason = some .infiniteLoop ∧
      (leaving.run nook 2).outcome.failureReason ≠ some .infiniteLoop ∧
      (leaving.run nook 5).executionSteps = 2 ∧ (leaving.run nook 5).Decided ∧
      leaving.run nook 2 = leaving.run nook 5 := by
  have h₁ : (leaving.run nook 1).outcome.failureReason = some .infiniteLoop := by
    rw [run_eq_stagedRun]
    decide
  have h₂ : (leaving.run nook 2).outcome.failureReason ≠ some .infiniteLoop := by
    rw [run_eq_stagedRun]
    decide
  have hs : (leaving.run nook 5).executionSteps = 2 := by
    rw [run_eq_stagedRun]
    decide
  have hr : (leaving.run nook 5).outcome.failureReason = some .maxSteps := by
    rw [run_eq_stagedRun]
    decide
  have hd : (leaving.run nook 5).Decided := Or.inr ⟨.maxSteps, hr, by decide⟩
  obtain ⟨hv, -, -, -⟩ := run_of_smaller_ceiling leaving nook (show 1 ≤ 5 by decide)
  obtain ⟨-, -, -, hsame⟩ := run_of_smaller_ceiling leaving nook (show 2 ≤ 5 by decide)
  exact ⟨by decide, by decide, hv, h₁, h₂, hs, hd, hsame (Or.inr ⟨Nat.le_of_eq hs, hd⟩)⟩

end Graph
end Flowgraph
