import Flowgraph.World
import Flowgraph.Proofs.Grid
import Mathlib.Tactic.SplitIfs
/-!
# What an action does

An action is attempted, its step is counted, and then the verdict is settled. Only a move can be
blocked. A world that is sound has one verdict at most, and gives a reason exactly when it failed.
-/
namespace Flowgraph

def Look.failure? : Look → Option FailureReason
  | .free => none
  | .wall => some .collision
  | .outOfBounds => some .outOfBounds

namespace World
variable {w : World} {level : Level} {a : ActionKey} {r : FailureReason}

theorem isTerminal_eq_false_iff :
    w.isTerminal = false ↔ w.isComplete = false ∧ w.isFailed = false := by
  simp [isTerminal, Bool.or_eq_false_iff]

theorem isTerminal_of_complete (h : w.isComplete = true) : w.isTerminal = true := by
  rw [isTerminal, h, Bool.true_or]

theorem isTerminal_of_failed (h : w.isFailed = true) : w.isTerminal = true := by
  rw [isTerminal, h, Bool.or_true]

/-- Two worlds that differ in their verdict at most. -/
structure SameScene (w v : World) : Prop where
  character : v.character = w.character
  grid : v.grid = w.grid
  stepCount : v.stepCount = w.stepCount
  lastAction : v.lastAction = w.lastAction

theorem markComplete_scene (w : World) : SameScene w w.markComplete := by
  unfold markComplete
  split <;> exact ⟨rfl, rfl, rfl, rfl⟩

theorem markFailed_scene (w : World) (r : FailureReason) : SameScene w (w.markFailed r) := by
  unfold markFailed
  split <;> exact ⟨rfl, rfl, rfl, rfl⟩

theorem markFailed_of_open (hw : w.isTerminal = false) (r : FailureReason) :
    w.markFailed r = { w with isFailed := true, failureReason := some r } := by
  rw [markFailed, if_neg (by simp [hw])]

theorem markFailed_isComplete (w : World) (r : FailureReason) :
    (w.markFailed r).isComplete = w.isComplete := by
  unfold markFailed
  split <;> rfl

theorem failureReason_markFailed {r' : FailureReason}
    (h : (w.markFailed r).failureReason = some r') : w.failureReason = some r' ∨ r' = r := by
  unfold markFailed at h
  split at h
  · exact Or.inl h
  · exact Or.inr (Option.some.inj h).symm

theorem settle_scene (w : World) (level : Level) : SameScene w (w.settle level) := by
  unfold settle
  split_ifs
  · exact ⟨rfl, rfl, rfl, rfl⟩
  · exact markComplete_scene w
  · exact markFailed_scene w _
  · exact ⟨rfl, rfl, rfl, rfl⟩

/-- One verdict at most, and a reason exactly for a failure. -/
structure Sound (w : World) : Prop where
  exclusive : ¬(w.isComplete = true ∧ w.isFailed = true)
  reason : w.failureReason.isSome = w.isFailed

theorem start_sound (level : Level) : Sound level.start := ⟨by simp [Level.start], rfl⟩

theorem Sound.markComplete (h : Sound w) : Sound w.markComplete := by
  unfold World.markComplete
  split
  · exact h
  · next hf => exact ⟨by simp [hf], h.reason⟩

theorem Sound.markFailed (h : Sound w) (r : FailureReason) : Sound (w.markFailed r) := by
  unfold World.markFailed
  split
  · exact h
  · next ht =>
    have hc := (isTerminal_eq_false_iff.mp (Bool.eq_false_iff.mpr ht)).1
    exact ⟨by simp [hc], rfl⟩

theorem Sound.settle (h : Sound w) (level : Level) : Sound (w.settle level) := by
  unfold World.settle
  split_ifs
  · exact h
  · exact h.markComplete
  · exact h.markFailed _
  · exact h

theorem failureReason_of_open (h : Sound w) (hw : w.isTerminal = false) :
    w.failureReason = none := by
  have hr := h.reason
  rw [(isTerminal_eq_false_iff.mp hw).2] at hr
  simpa using hr

/-- Why an action is blocked. -/
def blocked? (w : World) (a : ActionKey) : Option FailureReason :=
  if a = .known .move then (w.grid.look w.ahead).failure? else none

theorem blocked?_eq_some_iff :
    w.blocked? a = some r ↔ a = .known .move ∧
      (r = .collision ∧ w.grid.look w.ahead = .wall ∨
        r = .outOfBounds ∧ w.grid.look w.ahead = .outOfBounds) := by
  unfold blocked?
  split_ifs with ha
  · cases w.grid.look w.ahead <;> simp [ha, Look.failure?, eq_comm]
  · simp [ha]

theorem blocked?_eq_none_iff :
    w.blocked? a = none ↔ (a = .known .move → w.grid.isOpen w.ahead = true) := by
  unfold blocked?
  split_ifs with ha
  · cases hl : w.grid.look w.ahead <;> simp [ha, Look.failure?, Grid.isOpen_iff, hl]
  · simp [ha]

/-- An action with its step counted and its verdict still open. -/
def attempt (w : World) : ActionKey → World
  | .known a => (w.perform a).countStep
  | .unknown _ _ => w.countStep

theorem act_eq_settle : w.act level a = (w.attempt a).settle level := by
  cases a <;> rfl

theorem attempt_of_blocked (hw : w.isTerminal = false) (hb : w.blocked? a = some r) :
    w.attempt a = { w with
      stepCount := w.stepCount + 1
      isFailed := true
      failureReason := some r
      lastAction := some .moveBlocked } := by
  obtain ⟨rfl, ⟨rfl, hl⟩ | ⟨rfl, hl⟩⟩ := blocked?_eq_some_iff.mp hb
  · simp [attempt, perform, hl, markFailed, hw, countStep]
  · simp [attempt, perform, hl, markFailed, hw, countStep]

def halted (w : World) (a : ActionKey) : World :=
  match w.blocked? a with
  | none => w
  | some r => w.markFailed r

theorem halted_scene (w : World) (a : ActionKey) : SameScene w (w.halted a) := by
  unfold halted
  cases w.blocked? a with
  | none => exact ⟨rfl, rfl, rfl, rfl⟩
  | some r => exact markFailed_scene w r

theorem Sound.halted (h : Sound w) (a : ActionKey) : Sound (w.halted a) := by
  unfold World.halted
  cases w.blocked? a with
  | none => exact h
  | some r => exact h.markFailed r

theorem attempt_shape (w : World) (a : ActionKey) :
    w.attempt a = { w.halted a with
      character := (w.attempt a).character
      stepCount := w.stepCount + 1
      lastAction := (w.attempt a).lastAction } := by
  cases a with
  | unknown => rfl
  | known b =>
    cases b with
    | move =>
      cases hl : w.grid.look w.ahead with
      | free => simp [attempt, perform, hl, countStep, moveTo, halted, blocked?, Look.failure?]
      | wall =>
        have hs := (markFailed_scene w .collision).stepCount
        simp [attempt, perform, hl, countStep, halted, blocked?, Look.failure?, hs]
      | outOfBounds =>
        have hs := (markFailed_scene w .outOfBounds).stepCount
        simp [attempt, perform, hl, countStep, halted, blocked?, Look.failure?, hs]
    | turnLeft => rfl
    | turnRight => rfl
    | wait => rfl

theorem attempt_grid (w : World) (a : ActionKey) : (w.attempt a).grid = w.grid :=
  (congrArg World.grid (attempt_shape w a)).trans (halted_scene w a).grid

theorem attempt_stepCount (w : World) (a : ActionKey) :
    (w.attempt a).stepCount = w.stepCount + 1 :=
  congrArg World.stepCount (attempt_shape w a)

theorem Sound.attempt (h : Sound w) (a : ActionKey) : Sound (w.attempt a) := by
  rw [attempt_shape]
  exact ⟨(h.halted a).exclusive, (h.halted a).reason⟩

theorem Sound.act (h : Sound w) (level : Level) (a : ActionKey) : Sound (w.act level a) := by
  rw [act_eq_settle]
  exact (h.attempt a).settle level

theorem attempt_verdict (hb : w.blocked? a = none) :
    (w.attempt a).isComplete = w.isComplete ∧ (w.attempt a).isFailed = w.isFailed := by
  have hw : w.halted a = w := by simp only [halted, hb]
  rw [attempt_shape, hw]
  exact ⟨rfl, rfl⟩

theorem attempt_failureReason (hb : w.blocked? a = none) :
    (w.attempt a).failureReason = w.failureReason := by
  have hw : w.halted a = w := by simp only [halted, hb]
  rw [attempt_shape, hw]

theorem attempt_position (hb : w.blocked? a = none) :
    (w.attempt a).character.position =
      if a = .known .move then w.ahead else w.character.position := by
  cases a with
  | unknown => rfl
  | known b =>
    cases b with
    | move =>
      have hl := Grid.isOpen_iff.mp (blocked?_eq_none_iff.mp hb rfl)
      simp [attempt, perform, hl, countStep, moveTo]
    | turnLeft => rfl
    | turnRight => rfl
    | wait => rfl

theorem act_grid (w : World) (level : Level) (a : ActionKey) : (w.act level a).grid = w.grid := by
  rw [act_eq_settle, (settle_scene _ level).grid, attempt_grid]

theorem act_stepCount (w : World) (level : Level) (a : ActionKey) :
    (w.act level a).stepCount = w.stepCount + 1 := by
  rw [act_eq_settle, (settle_scene _ level).stepCount, attempt_stepCount]

/-- What an action makes of a world that has no verdict yet. -/
inductive Effect (level : Level) (w : World) (a : ActionKey) : World → Prop where
  | blocked {reason : FailureReason} (hb : w.blocked? a = some reason) :
      Effect level w a { w with
        stepCount := w.stepCount + 1
        isFailed := true
        failureReason := some reason
        lastAction := some .moveBlocked }
  | reached (hb : w.blocked? a = none)
      (hg : (w.attempt a).character.position = level.goalPosition) :
      Effect level w a { w.attempt a with isComplete := true }
  | spent (hb : w.blocked? a = none)
      (hg : (w.attempt a).character.position ≠ level.goalPosition)
      (hm : level.maxSteps.toNat ≤ w.stepCount + 1) :
      Effect level w a { w.attempt a with isFailed := true, failureReason := some .maxSteps }
  | going (hb : w.blocked? a = none)
      (hg : (w.attempt a).character.position ≠ level.goalPosition)
      (hm : w.stepCount + 1 < level.maxSteps.toNat) :
      Effect level w a (w.attempt a)

theorem act_effect (level : Level) (a : ActionKey) (hw : w.isTerminal = false) :
    Effect level w a (w.act level a) := by
  rw [act_eq_settle]
  cases hb : w.blocked? a with
  | some r =>
    rw [attempt_of_blocked hw hb]
    exact .blocked hb
  | none =>
    obtain ⟨hc, hf⟩ := attempt_verdict hb
    obtain ⟨hwc, hwf⟩ := isTerminal_eq_false_iff.mp hw
    have hn : ¬(w.attempt a).isFailed = true := by simp [hf, hwf]
    have ht : ¬(w.attempt a).isTerminal = true := by simp [isTerminal, hc, hf, hwc, hwf]
    rw [settle, if_neg hn, attempt_stepCount]
    split_ifs with hg hm
    · rw [markComplete, if_neg hn]
      exact .reached hb hg
    · rw [markFailed, if_neg ht]
      exact .spent hb hg hm
    · exact .going hb hg (by omega)

theorem Sound.failureReason_act (h : Sound w) (hw : w.isTerminal = false)
    (hb : w.blocked? a = none) (hr : (w.act level a).failureReason = some r) : r = .maxSteps := by
  have hn : (w.attempt a).failureReason = none :=
    (attempt_failureReason hb).trans (failureReason_of_open h hw)
  have he := act_effect level a hw
  generalize w.act level a = u at he hr
  cases he with
  | blocked hb' => rw [hb] at hb'; cases hb'
  | reached => rw [hn] at hr; cases hr
  | spent => cases hr; rfl
  | going => rw [hn] at hr; cases hr

end World
end Flowgraph
