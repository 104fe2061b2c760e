import Flowgraph.Proofs.Run.Ceiling
import Flowgraph.Proofs.Run.Ending
/-!
# Livelock

A run that comes back to a node without an action in between goes round for ever: the loops that are
open, the visits that are counted and the trace steer nothing. Every such run is reported as an
infinite loop, at its ceiling and at every larger one.
-/
namespace Flowgraph

/-- The report of a run that its ceiling stopped. -/
structure Report.RanAway (r : Report) (level : Level) (ceiling : Nat) : Prop where
  reason : r.outcome.failureReason = some .infiniteLoop
  failed : ∃ w, r.outcome.finalState = some w ∧ w.isFailed = true ∧ w.isComplete = false
  success : r.outcome.success = false
  message : r.outcome.message = Message.failure .infiniteLoop r.outcome.stepCount level
  steps : r.executionSteps = ceiling

namespace Graph
variable {g : Graph} {level : Level} {ceiling i j : Nat} {id : String}

theorem current_of_visited (h : (g.run level ceiling).visited[i]? = some id) :
    i < (g.trail level ceiling).length ∧
      ∃ n, (g.stage level i).current? = some n ∧ n.id = id := by
  rw [(run_trace g level ceiling).2, List.getElem?_map] at h
  obtain ⟨n, hn, hid⟩ := Option.map_eq_some_iff.mp h
  have hi : i < (g.trail level ceiling).length := (List.getElem?_eq_some_iff.mp hn).1
  exact ⟨hi, n, (getElem?_trail hi).symm.trans hn, hid⟩

theorem stepCount_of_quiet (hij : i ≤ j)
    (h : ∀ m, i ≤ m → m < j → ∀ n, (g.stage level m).current? = some n → n.action? = none) :
    (g.stage level j).world.stepCount = (g.stage level i).world.stepCount := by
  induction hij with
  | refl => rfl
  | @step j hij ih =>
    rw [← ih fun m him hmj => h m him (Nat.lt_succ_of_lt hmj), stage_succ]
    cases hc : (g.stage level j).current? with
    | none => rw [advance_of_over hc]
    | some n =>
      rw [advance_of_current hc, Node.work_stepCount, h j hij (Nat.lt_succ_self j) n hc]
      rfl

theorem Idles.ranAway (h : g.Idles level i) {c : Nat} (hc : i < c) :
    (g.run level c).RanAway level c := by
  have ho := run_of_idles h hc
  obtain ⟨-, n, hn⟩ := h c (Nat.le_of_lt hc)
  have hopen : (g.stage level i).world.isTerminal = false := by
    obtain ⟨-, n', hn'⟩ := h i (Nat.le_refl i)
    exact (Stage.current?_eq_some_iff.mp hn').1
  have hsound := (stage_sound g level i).markFailed .infiniteLoop
  have hfailed := World.markFailed_of_open hopen .infiniteLoop
  have hreason : ((g.stage level i).world.markFailed .infiniteLoop).failureReason =
      some .infiniteLoop := by rw [hfailed]
  have hcomplete := hsound.not_complete hreason
  refine ⟨?_, ⟨_, congrArg Outcome.finalState ho, by rw [hfailed], hcomplete⟩, ?_, ?_, ?_⟩
  · rw [ho, outcome_failureReason, hreason]
  · rw [ho]
    exact hcomplete
  · rw [ho]
    exact World.message_of_failure hsound hreason
  · rw [(run_trace g level c).1, length_trail_of_current hn]

/-- A run of a graph with distinct ids that meets an id twice, and no action in between, is reported
as an infinite loop, at its ceiling and at every larger one, with the same count of steps. -/
theorem livelock_reported (hd : (g.nodes.map (·.id)).Nodup) (hij : i < j)
    (hi : (g.run level ceiling).visited[i]? = some id)
    (hj : (g.run level ceiling).visited[j]? = some id)
    (hquiet : ∀ n ∈ ((g.visits level ceiling).take j).drop i, n.action? = none) :
    (g.run level ceiling).RanAway level ceiling ∧
      ∀ c, ceiling ≤ c → (g.run level c).RanAway level c ∧
        (g.run level c).outcome.stepCount = (g.run level ceiling).outcome.stepCount := by
  obtain ⟨-, n, hn, rfl⟩ := current_of_visited hi
  obtain ⟨hjl, n', hn', hid⟩ := current_of_visited hj
  obtain rfl := eq_of_id hd (mem_of_current hn') (mem_of_current hn) hid
  have hjc : j < ceiling := hjl.trans_le (length_trail_le g level ceiling)
  have hs : (g.stage level j).world.stepCount = (g.stage level i).world.stepCount := by
    refine stepCount_of_quiet (Nat.le_of_lt hij) fun m him hmj v hv => hquiet v ?_
    rw [visits_eq_trail]
    apply List.mem_of_getElem? (i := m - i)
    rw [List.getElem?_drop, Nat.add_sub_cancel' him, List.getElem?_take_of_lt hmj,
      getElem?_trail (hmj.trans hjl), hv]
  have hidles := idles_of_revisit hij hn hn' hs
  refine ⟨hidles.ranAway (hij.trans hjc), fun c hc => ⟨hidles.ranAway (by omega), ?_⟩⟩
  rw [run_of_idles hidles (hij.trans hjc), run_of_idles hidles (show i < c by omega)]

def pacing : Graph where
  nodes := [{ id := "in", kind := .entry },
    { id := "turn", kind := .action (some (.known .turnLeft)) },
    { id := "again", kind := .loop { count := 3 } }, { id := "blank", kind := .action none },
    { id := "ask", kind := .condition (.known .notAtGoal) }]
  edges := [⟨"1", "in", "turn", none⟩, ⟨"2", "turn", "again", none⟩, ⟨"3", "again", "blank", none⟩,
    ⟨"4", "blank", "ask", none⟩, ⟨"5", "ask", "in", some false⟩, ⟨"6", "ask", "again", some true⟩]

theorem pacing_reported :
    (pacing.nodes.map (·.id)).Nodup ∧
      (pacing.run shortStay 8).visited =
        ["in", "turn", "again", "blank", "ask", "again", "blank", "ask"] ∧
      (pacing.run shortStay 8).RanAway shortStay 8 ∧
      (pacing.run shortStay 1000).RanAway shortStay 1000 ∧
      (pacing.run shortStay 1000).outcome.stepCount =
        (pacing.run shortStay 8).outcome.stepCount := by
  have hd : (pacing.nodes.map (·.id)).Nodup := by decide
  have hv : (pacing.run shortStay 8).visited =
      ["in", "turn", "again", "blank", "ask", "again", "blank", "ask"] := by
    rw [run_eq_stagedRun]
    decide
  have hquiet : ∀ n ∈ ((pacing.visits shortStay 8).take 5).drop 2, n.action? = none := by
    rw [visits_eq_trail]
    decide
  obtain ⟨h, habove⟩ := livelock_reported hd (show 2 < 5 by decide)
    (by rw [hv]; rfl) (by rw [hv]; rfl) hquiet
  exact ⟨hd, hv, h, habove 1000 (by decide)⟩

end Graph
end Flowgraph
