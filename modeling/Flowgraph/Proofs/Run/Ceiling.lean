import Flowgraph.Proofs.Run.Invariant
import Flowgraph.Proofs.Run.Moment
import Mathlib.Data.Finset.Card
import Mathlib.Data.Finset.Dedup
import Mathlib.Order.Interval.Finset.Nat
/-!
# Ceilings

A run that ends by itself is not changed by a larger ceiling.

Between two actions the world does not change, and what comes next depends on the node and the world
only. A node that comes again before the next action therefore comes again for ever, and a run that
is not caught so takes an action within as many visits as the graph has nodes. Beyond the number of
nodes times the budget of actions, a ceiling makes no difference to the verdict.
-/
namespace Flowgraph
namespace Graph
variable {g : Graph} {level : Level} {i j k m : Nat}

/-- The run ends by itself under the ceiling: a visit is left to it, or there is a verdict. -/
def Ends (g : Graph) (level : Level) (ceiling : Nat) : Prop :=
  (g.trail level ceiling).length < ceiling ∨ (g.stage level ceiling).world.isTerminal = true

theorem Ends.over (h : g.Ends level m) : (g.stage level m).current? = none := by
  rcases h with hl | ht
  · rcases length_trail_or_over g level m with hk | ⟨-, ho⟩
    · omega
    · rwa [stage_length_trail] at ho
  · exact Stage.current?_of_terminal ht

theorem Ends.mono (h : g.Ends level m) (hmk : m ≤ k) : g.Ends level k := by
  unfold Ends
  rw [trail_of_over h.over hmk, stage_of_over h.over hmk]
  exact h.imp_left fun hl => hl.trans_le hmk

theorem Ends.finalWorld (h : g.Ends level m) :
    g.finalWorld level m = (g.stage level m).world := by
  rcases h with hl | ht
  · exact if_neg (by omega)
  · exact finalWorld_of_terminal ht

theorem Ends.run (h : g.Ends level m) (hmk : m ≤ k) : g.run level k = g.run level m := by
  cases he : g.entryNode? with
  | none => rw [run_of_no_entry he, run_of_no_entry he]
  | some entry =>
    rw [run_of_entry he, run_of_entry he, (h.mono hmk).finalWorld, h.finalWorld,
      trail_of_over h.over hmk, stage_of_over h.over hmk]

/-- From a visit on, the run goes on and nothing happens to the world. -/
def Idles (g : Graph) (level : Level) (k : Nat) : Prop :=
  ∀ m, k ≤ m → (g.stage level m).world = (g.stage level k).world ∧
    ∃ n, (g.stage level m).current? = some n

theorem Idles.mono (h : g.Idles level k) (hk : k ≤ m) : g.Idles level m := by
  intro l hl
  obtain ⟨hw, n, hn⟩ := h l (by omega)
  exact ⟨hw.trans (h m hk).1.symm, n, hn⟩

theorem stage_of_repeat (hij : i < j) (h : g.stage level j = g.stage level i) (hk : i ≤ k) :
    ∃ m, i ≤ m ∧ m < j ∧ g.stage level k = g.stage level m := by
  induction hk with
  | refl => exact ⟨i, Nat.le_refl i, hij, rfl⟩
  | step _ ih =>
    obtain ⟨m, him, hmj, hm⟩ := ih
    rw [stage_succ, hm, ← stage_succ]
    by_cases hj : m + 1 = j
    · exact ⟨i, Nat.le_refl i, hij, by rw [hj, h]⟩
    · exact ⟨m + 1, by omega, by omega, rfl⟩

theorem stepCount_le_succ (g : Graph) (level : Level) (k : Nat) :
    (g.stage level k).world.stepCount ≤ (g.stage level (k + 1)).world.stepCount := by
  rw [stage_succ]
  cases hc : (g.stage level k).current? with
  | none => rw [advance_of_over hc]
  | some n =>
    rw [advance_of_current hc]
    simp only [Node.work_stepCount]
    omega

theorem stepCount_mono (g : Graph) (level : Level) (hkm : k ≤ m) :
    (g.stage level k).world.stepCount ≤ (g.stage level m).world.stepCount := by
  induction hkm with
  | refl => exact Nat.le_refl _
  | step _ ih => exact ih.trans (stepCount_le_succ ..)

theorem world_succ_of_stepCount
    (h : (g.stage level (k + 1)).world.stepCount = (g.stage level k).world.stepCount) :
    (g.stage level (k + 1)).world = (g.stage level k).world := by
  rw [stage_succ] at h ⊢
  cases hc : (g.stage level k).current? with
  | none => rw [advance_of_over hc]
  | some n =>
    rw [advance_of_current hc] at h ⊢
    cases ha : n.action? with
    | none => exact Node.work_of_no_action ha
    | some a =>
      rw [Node.work_stepCount, ha] at h
      simp at h

theorem world_of_stepCount (hkm : k ≤ m)
    (h : (g.stage level m).world.stepCount = (g.stage level k).world.stepCount) :
    (g.stage level m).world = (g.stage level k).world := by
  induction hkm with
  | refl => rfl
  | @step m hkm ih =>
    have hs : (g.stage level (m + 1)).world.stepCount = (g.stage level k).world.stepCount := h
    have hk := stepCount_mono g level hkm
    have hm := stepCount_le_succ g level m
    exact (world_succ_of_stepCount (by omega)).trans (ih (by omega))

theorem current_of_le {n : Node} (hkm : k ≤ m) (h : (g.stage level m).current? = some n) :
    ∃ n', (g.stage level k).current? = some n' := by
  cases hc : (g.stage level k).current? with
  | some n' => exact ⟨n', rfl⟩
  | none =>
    rw [stage_of_over hc hkm, hc] at h
    cases h

theorem exists_repeat {n : Node} (hc : (g.stage level (k + g.nodes.length)).current? = some n) :
    ∃ i j, k ≤ i ∧ i < j ∧ j ≤ k + g.nodes.length ∧
      (g.stage level i).current? = (g.stage level j).current? := by
  let s := Finset.Icc k (k + g.nodes.length)
  let t := (g.nodes.map some).toFinset
  have hst : t.card < s.card := by
    have ht : t.card ≤ (g.nodes.map some).length := List.toFinset_card_le _
    rw [List.length_map] at ht
    simp only [s, Nat.card_Icc]
    omega
  have hmaps : ∀ i ∈ s, (g.stage level i).current? ∈ t := by
    intro i hi
    obtain ⟨n', hn'⟩ := current_of_le (Finset.mem_Icc.mp hi).2 hc
    rw [hn', List.mem_toFinset]
    exact List.mem_map_of_mem (mem_of_current hn')
  obtain ⟨i, hi, j, hj, hne, he⟩ := Finset.exists_ne_map_eq_of_card_lt_of_maps_to hst hmaps
  have hi' := Finset.mem_Icc.mp hi
  have hj' := Finset.mem_Icc.mp hj
  rcases Nat.lt_or_gt_of_ne hne with hij | hij
  · exact ⟨i, j, hi'.1, hij, hj'.2, he⟩
  · exact ⟨j, i, hj'.1, hij, hi'.2, he.symm⟩

theorem idles_of_revisit {n : Node} (hij : i < j) (hi : (g.stage level i).current? = some n)
    (hj : (g.stage level j).current? = some n)
    (hs : (g.stage level j).world.stepCount = (g.stage level i).world.stepCount) :
    g.Idles level i := by
  have hstage : g.stage level j = g.stage level i := by
    have hw := world_of_stepCount (Nat.le_of_lt hij) hs
    have hni := (Stage.current?_eq_some_iff.mp hi).2
    have hnj := (Stage.current?_eq_some_iff.mp hj).2
    cases hsi : g.stage level i
    cases hsj : g.stage level j
    simp_all
  intro k hk
  obtain ⟨m, him, hmj, hm⟩ := stage_of_repeat hij hstage hk
  have h₁ := stepCount_mono g level him
  have h₂ := stepCount_mono g level (Nat.le_of_lt hmj)
  rw [hm]
  exact ⟨world_of_stepCount him (by omega), current_of_le (Nat.le_of_lt hmj) hj⟩

/-- Within a lap of as many visits as there are nodes, the run ends, takes a step, or idles. -/
theorem lap (g : Graph) (level : Level) (k : Nat) :
    (g.stage level (k + g.nodes.length)).current? = none ∨
      (g.stage level k).world.stepCount <
        (g.stage level (k + g.nodes.length)).world.stepCount ∨
      g.Idles level (k + g.nodes.length) := by
  cases hc : (g.stage level (k + g.nodes.length)).current? with
  | none => exact Or.inl rfl
  | some n =>
    refine Or.inr ?_
    by_cases hs : (g.stage level k).world.stepCount <
        (g.stage level (k + g.nodes.length)).world.stepCount
    · exact Or.inl hs
    · obtain ⟨i, j, hki, hij, hj, he⟩ := exists_repeat hc
      obtain ⟨n', hn'⟩ := current_of_le hj hc
      have h₁ := stepCount_mono g level hki
      have h₂ := stepCount_mono g level (Nat.le_of_lt hij)
      have h₃ := stepCount_mono g level hj
      have hi := idles_of_revisit hij (he.trans hn') hn' (by omega)
      exact Or.inr (hi.mono (by omega))

theorem laps (g : Graph) (level : Level) (q : Nat) :
    (g.stage level (g.nodes.length * q)).current? = none ∨
      q ≤ (g.stage level (g.nodes.length * q)).world.stepCount ∨
      g.Idles level (g.nodes.length * q) := by
  -- one step a lap at least, as long as the run neither ends nor idles
  induction q with
  | zero => exact Or.inr (Or.inl (Nat.zero_le _))
  | succ q ih =>
    have hlap := lap g level (g.nodes.length * q)
    rw [Nat.mul_succ]
    rcases ih with ho | hs | hi
    · left
      rw [stage_of_over ho (Nat.le_add_right ..)]
      exact ho
    · rcases hlap with ho | hs' | hi
      · exact Or.inl ho
      · exact Or.inr (Or.inl (by omega))
      · exact Or.inr (Or.inr hi)
    · exact Or.inr (Or.inr (hi.mono (Nat.le_add_right ..)))

theorem over_or_idles (g : Graph) (level : Level) :
    (g.stage level (g.nodes.length * level.budget)).current? = none ∨
      g.Idles level (g.nodes.length * level.budget) := by
  rcases laps g level level.budget with ho | hs | hi
  · exact Or.inl ho
  · left
    have hb := (stage_withinBudget g level (g.nodes.length * level.budget)).left
    refine Stage.current?_of_terminal ?_
    by_contra ht
    have := hb (Bool.eq_false_iff.mpr ht)
    omega
  · exact Or.inr hi

theorem run_of_over {b c : Nat} (h : (g.stage level b).current? = none) (hc : b < c) :
    g.run level c = g.run level (b + 1) ∧ (g.run level c).executionSteps ≤ b := by
  have hl := length_trail_le g level b
  have hends : g.Ends level (b + 1) := by
    left
    rw [trail_of_over h (Nat.le_succ b)]
    exact Nat.lt_succ_of_le hl
  refine ⟨hends.run hc, ?_⟩
  rwa [(run_trace g level c).1, trail_of_over h (Nat.le_of_lt hc)]

theorem run_of_idles {b c : Nat} (h : g.Idles level b) (hc : b < c) :
    (g.run level c).outcome =
      ((g.stage level b).world.markFailed .infiniteLoop).outcome level := by
  obtain ⟨hw, n, hn⟩ := h c (Nat.le_of_lt hc)
  cases he : g.entryNode? with
  | none =>
    rw [over_of_no_entry he] at hn
    cases hn
  | some entry =>
    rw [run_of_entry he, finalWorld, length_trail_of_current hn, if_pos (Nat.le_refl c), hw]

/-- Above the number of nodes times the budget of actions, the ceiling is not seen in the verdict,
and it is seen in the report of a runaway only. -/
theorem run_above_bound (g : Graph) (level : Level) {c₁ c₂ : Nat}
    (h₁ : g.nodes.length * max level.maxSteps.toNat 1 < c₁)
    (h₂ : g.nodes.length * max level.maxSteps.toNat 1 < c₂) :
    (g.run level c₁).outcome = (g.run level c₂).outcome ∧
      ((g.run level c₁).outcome.failureReason ≠ some .infiniteLoop →
        g.run level c₁ = g.run level c₂ ∧
          (g.run level c₁).executionSteps ≤ g.nodes.length * max level.maxSteps.toNat 1) := by
  rcases over_or_idles g level with ho | hi
  · obtain ⟨hr₁, hb⟩ := run_of_over ho h₁
    obtain ⟨hr₂, -⟩ := run_of_over ho h₂
    have hr : g.run level c₁ = g.run level c₂ := hr₁.trans hr₂.symm
    exact ⟨by rw [hr], fun _ => ⟨hr, hb⟩⟩
  · have hr₁ := run_of_idles hi h₁
    have hr₂ := run_of_idles hi h₂
    refine ⟨hr₁.trans hr₂.symm, fun hn => absurd ?_ hn⟩
    obtain ⟨-, n, hc⟩ := hi _ (Nat.le_refl _)
    have ht := (Stage.current?_eq_some_iff.mp hc).1
    rw [hr₁, outcome_failureReason, World.markFailed, if_neg (by simp [ht])]

def waiting : Graph where
  nodes := [{ id := "in", kind := .entry }, { id := "wait", kind := .action (some (.known .wait)) }]
  edges := [⟨"1", "in", "wait", none⟩, ⟨"2", "wait", "in", none⟩]

def shortStay : Level := .plain "stay" (.ofRows ["S.G"]) ⟨0, 0⟩ .east ⟨.clamp 2, 0⟩ 2

theorem waiting_above_bound :
    waiting.nodes.length * max shortStay.maxSteps.toNat 1 < 5 ∧
      waiting.nodes.length * max shortStay.maxSteps.toNat 1 < 100 ∧
      (waiting.run shortStay 5).outcome.failureReason = some .maxSteps ∧
      waiting.run shortStay 5 = waiting.run shortStay 100 ∧
      (waiting.run shortStay 5).executionSteps ≤ 4 := by
  have hv : (waiting.run shortStay 5).outcome.failureReason = some .maxSteps := by
    rw [run_eq_stagedRun]
    decide
  have h := @run_above_bound waiting shortStay 5 100 (by decide) (by decide)
  exact ⟨by decide, by decide, hv, h.2 (by rw [hv]; decide)⟩

end Graph
end Flowgraph
