import Flowgraph.Proofs.Run.Invariant
import Flowgraph.Proofs.Run.Moment
/-!
# How runs end

A run with an entry node ends in one of five ways, and its last visit tells which. The verdict is put
together in four places: a blocked move fails at once; else the goal is looked for, then the budget;
the ceiling is looked at when the walk is done; and what is left did not finish.
-/
namespace Flowgraph

inductive Ending where
  | solved | blocked | spent | ranAway | unfinished
  deriving DecidableEq, Repr

/-- The last visit of a run: its node, the world that the node found, and the world that is left. -/
structure LastVisit where
  node : Node
  before : World
  after : World

namespace LastVisit

/-- The node is an action, and no move that is blocked. -/
structure CarriedOut (v : LastVisit) (level : Level) : Prop where
  acts : v.node.action?.isSome = true
  free : v.node.action? = some (.known .move) → level.grid.isOpen v.before.ahead = true

/-- If the node is an action, it leaves the verdict open. -/
def Undecided (v : LastVisit) (level : Level) : Prop :=
  v.node.action?.isSome = true → v.CarriedOut level ∧
    v.after.character.position ≠ level.goalPosition ∧
    v.after.stepCount < max level.maxSteps.toNat 1

end LastVisit

/-- What a report says, and what the last visit shows, when a run ends so. -/
def Ending.Fits (g : Graph) (level : Level) (ceiling : Nat) (r : Report) (v : LastVisit) :
    Ending → Prop
  | .solved =>
    v.after.isComplete = true ∧ v.CarriedOut level ∧
      v.after.character.position = level.goalPosition ∧
      r.outcome.message = Message.success v.after.stepCount level
  | .blocked =>
    ∃ reason, v.after.failureReason = some reason ∧ v.node.action? = some (.known .move) ∧
      v.after.character = v.before.character ∧
      (reason = .collision ∧
          (∃ c, level.grid.cell? v.after.ahead = some c ∧ c.kind = .wall) ∨
        reason = .outOfBounds ∧ level.grid.cell? v.after.ahead = none) ∧
      r.outcome.message = Message.failure reason v.after.stepCount level
  | .spent =>
    v.after.failureReason = some .maxSteps ∧ v.CarriedOut level ∧
      v.after.character.position ≠ level.goalPosition ∧
      v.after.stepCount = max level.maxSteps.toNat 1 ∧
      r.outcome.message = Message.failure .maxSteps v.after.stepCount level
  | .ranAway =>
    v.after.failureReason = some .infiniteLoop ∧ r.executionSteps = ceiling ∧
      v.Undecided level ∧
      r.outcome.message = Message.failure .infiniteLoop v.after.stepCount level
  | .unfinished =>
    v.after.isComplete = false ∧ v.after.failureReason = none ∧ r.executionSteps < ceiling ∧
      v.Undecided level ∧ g.follow? level v.node v.after = none ∧
      r.outcome.message = Message.didNotFinish

/-- A report, the last visit behind it, and the one ending that they fit. -/
structure Report.Explained (g : Graph) (level : Level) (ceiling : Nat) (r : Report)
    (v : LastVisit) : Prop where
  node : (g.visits level ceiling).getLast? = some v.node
  before : (g.moment level (r.executionSteps - 1)).walk.world = v.before
  after : r.outcome.finalState = some v.after
  visited : r.visited = (g.visits level ceiling).map (·.id)
  steps : r.executionSteps = r.visited.length
  steps_pos : 1 ≤ r.executionSteps
  steps_le : r.executionSteps ≤ ceiling
  ending : ∃! e : Ending, e.Fits g level ceiling r v
  exclusive : ¬(v.after.isComplete = true ∧ v.after.isFailed = true)
  reason : v.after.failureReason.isSome = v.after.isFailed
  success : r.outcome.success = v.after.isComplete
  count : r.outcome.stepCount = v.after.stepCount
  count_le : v.after.stepCount ≤ max level.maxSteps.toNat 1

namespace Graph
variable {g : Graph} {level : Level} {ceiling : Nat}

theorem finalWorld_scene (g : Graph) (level : Level) (ceiling : Nat) :
    (g.stage level ceiling).world.SameScene (g.finalWorld level ceiling) := by
  rcases finalWorld_cases g level ceiling with h | h
  · rw [h]
    exact ⟨rfl, rfl, rfl, rfl⟩
  · rw [h]
    exact World.markFailed_scene _ _

theorem finalWorld_sound (g : Graph) (level : Level) (ceiling : Nat) :
    (g.finalWorld level ceiling).Sound := by
  have hs := stage_sound g level ceiling
  rcases finalWorld_cases g level ceiling with h | h
  · rw [h]
    exact hs
  · rw [h]
    exact hs.markFailed _

theorem run_success (g : Graph) (level : Level) (ceiling : Nat) :
    (g.run level ceiling).outcome.success = (g.stage level ceiling).world.isComplete := by
  cases he : g.entryNode? with
  | none =>
    rw [run_of_no_entry he, stage_of_over (over_of_no_entry he level 0) (Nat.zero_le ceiling)]
    rfl
  | some entry =>
    rw [run_of_entry he]
    change (g.finalWorld level ceiling).isComplete = _
    rcases finalWorld_cases g level ceiling with h | h
    · rw [h]
    · rw [h, World.markFailed_isComplete]

theorem run_failureReason {r : FailureReason}
    (h : (g.run level ceiling).outcome.failureReason = some r) :
    (g.stage level ceiling).world.failureReason = some r ∨ r = .infiniteLoop := by
  cases he : g.entryNode? with
  | none =>
    rw [run_of_no_entry he] at h
    cases h
  | some entry =>
    rw [run_of_entry he, outcome_failureReason] at h
    rcases finalWorld_cases g level ceiling with hf | hf
    · rw [hf] at h
      exact Or.inl h
    · rw [hf] at h
      exact World.failureReason_markFailed h

/-- The last of `k + 1` visits under a ceiling, and the world that the run leaves. -/
structure IsLastVisit (g : Graph) (level : Level) (ceiling k : Nat) (v : LastVisit) : Prop where
  length : (g.trail level ceiling).length = k + 1
  current : (g.stage level k).current? = some v.node
  before : (g.stage level k).world = v.before
  stage : g.stage level ceiling =
    ⟨g.follow? level v.node v.before, v.node.work level v.before⟩
  after : g.finalWorld level ceiling = v.after

theorem exists_isLastVisit (level : Level) {entry : Node} (hc : 1 ≤ ceiling)
    (he : g.entryNode? = some entry) :
    ∃ k v, IsLastVisit g level ceiling k v := by
  have h0 : (g.stage level 0).current? = some entry :=
    Stage.current?_eq_some_iff.mpr ⟨rfl, he⟩
  obtain ⟨k, hk⟩ : ∃ k, (g.trail level ceiling).length = k + 1 := by
    apply Nat.exists_eq_succ_of_ne_zero
    intro hz
    rcases length_trail_or_over g level ceiling with hl | ⟨-, ho⟩
    · omega
    · rw [hz, h0] at ho
      cases ho
  have hlt : k < (g.trail level ceiling).length := by omega
  have hcur : (g.stage level k).current? = some (g.trail level ceiling)[k] :=
    (getElem?_trail hlt).symm.trans (List.getElem?_eq_getElem hlt)
  refine ⟨k, ⟨_, _, _⟩, hk, hcur, rfl, ?_, rfl⟩
  rw [← stage_length_trail, hk, stage_succ, advance_of_current hcur]

namespace IsLastVisit
variable {k : Nat} {v : LastVisit}

theorem getLast?_trail (h : IsLastVisit g level ceiling k v) :
    (g.trail level ceiling).getLast? = some v.node := by
  rw [List.getLast?_eq_getElem?, h.length]
  exact (getElem?_trail (by rw [h.length]; exact Nat.lt_succ_self k)).trans h.current

theorem open_before (h : IsLastVisit g level ceiling k v) : v.before.isTerminal = false := by
  rw [← h.before]
  exact (Stage.current?_eq_some_iff.mp h.current).1

theorem world (h : IsLastVisit g level ceiling k v) :
    (g.stage level ceiling).world = v.node.work level v.before :=
  congrArg Stage.world h.stage

theorem grid (h : IsLastVisit g level ceiling k v) : v.before.grid = level.grid := by
  rw [← h.before]
  exact stage_grid g level k

theorem after_of_terminal (h : IsLastVisit g level ceiling k v)
    (ht : (v.node.work level v.before).isTerminal = true) :
    v.after = v.node.work level v.before := by
  rw [← h.after, ← h.world]
  exact finalWorld_of_terminal (h.world ▸ ht)

theorem after_scene (h : IsLastVisit g level ceiling k v) :
    (v.node.work level v.before).SameScene v.after := by
  rw [← h.after, ← h.world]
  exact finalWorld_scene g level ceiling

theorem after_sound (h : IsLastVisit g level ceiling k v) : v.after.Sound := by
  rw [← h.after]
  exact finalWorld_sound g level ceiling

theorem follow?_eq_none (h : IsLastVisit g level ceiling k v) (hk : k + 1 < ceiling)
    (ht : (v.node.work level v.before).isTerminal = false) :
    g.follow? level v.node v.before = none := by
  have hover : (g.stage level ceiling).current? = none := by
    rcases length_trail_or_over g level ceiling with hl | ⟨-, ho⟩
    · rw [h.length] at hl
      omega
    · rwa [stage_length_trail] at ho
  rw [h.stage] at hover
  rcases Stage.current?_eq_none_iff.mp hover with hx | hx
  · rw [ht] at hx
    cases hx
  · exact hx

theorem before_budget (h : IsLastVisit g level ceiling k v) :
    v.before.stepCount < level.budget := by
  have hb := stage_withinBudget g level k
  rw [h.before] at hb
  exact hb.left h.open_before

variable {a : ActionKey}

theorem after_stepCount (h : IsLastVisit g level ceiling k v) (ha : v.node.action? = some a) :
    v.after.stepCount = v.before.stepCount + 1 := by
  rw [h.after_scene.stepCount, Node.work_of_action ha, World.act_stepCount]

theorem carriedOut (h : IsLastVisit g level ceiling k v) (ha : v.node.action? = some a)
    (hb : v.before.blocked? a = none) : v.CarriedOut level := by
  refine ⟨by rw [ha]; rfl, fun hmove => ?_⟩
  rw [ha, Option.some.injEq] at hmove
  rw [← h.grid]
  exact World.blocked?_eq_none_iff.mp hb hmove

end IsLastVisit
end Graph

namespace World
variable {w : World} {level : Level} {r : FailureReason}

theorem Sound.not_complete (h : Sound w) (hr : w.failureReason = some r) :
    w.isComplete = false := by
  have hf : w.isFailed = true := by rw [← h.reason, hr]; rfl
  exact Bool.eq_false_iff.mpr fun hc => h.exclusive ⟨hc, hf⟩

theorem message_of_complete (h : w.isComplete = true) :
    (w.outcome level).message = Message.success w.stepCount level := by
  simp only [outcome, h, if_true]

theorem message_of_failure (h : Sound w) (hr : w.failureReason = some r) :
    (w.outcome level).message = Message.failure r w.stepCount level := by
  simp [outcome, h.not_complete hr, hr]

theorem message_of_open (h : Sound w) (ht : w.isTerminal = false) :
    (w.outcome level).message = Message.didNotFinish := by
  simp [outcome, (isTerminal_eq_false_iff.mp ht).1, failureReason_of_open h ht]

def ending (w : World) : Ending :=
  match w.isComplete, w.failureReason with
  | true, _ => .solved
  | false, some .maxSteps => .spent
  | false, some .infiniteLoop => .ranAway
  | false, some _ => .blocked
  | false, none => .unfinished

end World

theorem Ending.Fits.eq_ending {g : Graph} {level : Level} {ceiling : Nat} {r : Report}
    {v : LastVisit} {e : Ending} (hs : v.after.Sound) (h : e.Fits g level ceiling r v) :
    e = v.after.ending := by
  unfold World.ending
  cases e with
  | solved => simp [h.1]
  | blocked =>
    obtain ⟨reason, hr, -, -, ⟨rfl, -⟩ | ⟨rfl, -⟩, -⟩ := h
    · simp [hs.not_complete hr, hr]
    · simp [hs.not_complete hr, hr]
  | spent => simp [hs.not_complete h.1, h.1]
  | ranAway => simp [hs.not_complete h.1, h.1]
  | unfinished => simp [h.1, h.2.1]

namespace Graph
variable {g : Graph} {level : Level} {ceiling k : Nat} {v : LastVisit} {r : Report}

theorem fits_of_open (h : IsLastVisit g level ceiling k v) (hr : r.executionSteps = k + 1)
    (hm : r.outcome.message = (v.after.outcome level).message)
    (ht : (v.node.work level v.before).isTerminal = false) (hu : v.Undecided level) :
    ∃ e : Ending, e.Fits g level ceiling r v := by
  have hafter := h.after
  rw [finalWorld, h.length, h.world] at hafter
  by_cases hc : ceiling ≤ k + 1
  · have hle := length_trail_le g level ceiling
    rw [if_pos hc, World.markFailed_of_open ht] at hafter
    have hf : v.after.failureReason = some .infiniteLoop := by rw [← hafter]
    exact ⟨.ranAway, hf, by rw [h.length] at hle; omega, hu,
      hm.trans (World.message_of_failure h.after_sound hf)⟩
  · have hn := h.follow?_eq_none (by omega) ht
    rw [if_neg hc] at hafter
    rw [← follow?_work, hafter] at hn
    rw [hafter] at ht
    exact ⟨.unfinished, (World.isTerminal_eq_false_iff.mp ht).1,
      World.failureReason_of_open h.after_sound ht, by omega, hu, hn,
      hm.trans (World.message_of_open h.after_sound ht)⟩

theorem fits_of_action (h : IsLastVisit g level ceiling k v) (hr : r.executionSteps = k + 1)
    (hm : r.outcome.message = (v.after.outcome level).message) {a : ActionKey}
    (ha : v.node.action? = some a) : ∃ e : Ending, e.Fits g level ceiling r v := by
  have hw : v.node.work level v.before = v.before.act level a := Node.work_of_action ha
  have hcount := h.after_stepCount ha
  have hbudget := h.before_budget
  have hterminal := h.after_of_terminal
  have hopen := fits_of_open h hr hm
  have heffect := World.act_effect level a h.open_before
  have hscene := h.after_scene
  rw [hw] at hterminal hopen hscene
  -- the cases of what an action does, with the world that it leaves as an unknown
  generalize v.before.act level a = u at hterminal hopen heffect hscene
  cases heffect with
  | @blocked reason hb =>
    have hafter := hterminal (World.isTerminal_of_failed rfl)
    obtain ⟨rfl, hlook⟩ := World.blocked?_eq_some_iff.mp hb
    have hf : v.after.failureReason = some reason := by rw [hafter]
    have hahead : v.after.ahead = v.before.ahead := by rw [hafter]; rfl
    rw [h.grid, Grid.look_eq_wall_iff, Grid.look_eq_outOfBounds_iff] at hlook
    exact ⟨.blocked, reason, hf, ha, by rw [hafter], hahead ▸ hlook,
      hm.trans (World.message_of_failure h.after_sound hf)⟩
  | reached hb hg =>
    have hafter := hterminal (World.isTerminal_of_complete rfl)
    have hcomplete : v.after.isComplete = true := by rw [hafter]
    exact ⟨.solved, hcomplete, h.carriedOut ha hb, by rw [hafter]; exact hg,
      hm.trans (World.message_of_complete hcomplete)⟩
  | spent hb hg hs =>
    have hafter := hterminal (World.isTerminal_of_failed rfl)
    have hf : v.after.failureReason = some .maxSteps := by rw [hafter]
    refine ⟨.spent, hf, h.carriedOut ha hb, by rw [hafter]; exact hg, ?_,
      hm.trans (World.message_of_failure h.after_sound hf)⟩
    unfold Level.budget at hbudget
    omega
  | going hb hg hs =>
    obtain ⟨hc, hf⟩ := World.attempt_verdict hb
    have ht : (v.before.attempt a).isTerminal = false := by
      rw [World.isTerminal, hc, hf]
      exact h.open_before
    refine hopen ht fun _ => ⟨h.carriedOut ha hb, by rw [hscene.character]; exact hg, by omega⟩

theorem exists_fits (h : IsLastVisit g level ceiling k v) (hr : r.executionSteps = k + 1)
    (hm : r.outcome.message = (v.after.outcome level).message) :
    ∃ e : Ending, e.Fits g level ceiling r v := by
  cases ha : v.node.action? with
  | some a => exact fits_of_action h hr hm ha
  | none =>
    have hw : v.node.work level v.before = v.before := Node.work_of_no_action ha
    refine fits_of_open h hr hm (by rw [hw]; exact h.open_before) fun hacts => ?_
    rw [ha] at hacts
    cases hacts

/-- Every run of a graph with an entry node ends in exactly one of the five ways. -/
theorem run_explained (g : Graph) (level : Level) {ceiling : Nat} {entry : Node}
    (hc : 1 ≤ ceiling) (he : g.entryNode? = some entry) :
    ∃ v, (g.run level ceiling).Explained g level ceiling v := by
  obtain ⟨k, v, h⟩ := exists_isLastVisit level hc he
  have hrun := run_of_entry he level ceiling
  rw [h.after, h.length] at hrun
  rw [hrun]
  obtain ⟨e, hfits⟩ := exists_fits (r := ⟨v.after.outcome level, k + 1,
    (g.trail level ceiling).map (·.id)⟩) h rfl rfl
  refine ⟨v, ?_⟩
  constructor
  · rw [visits_eq_trail]
    exact h.getLast?_trail
  · rw [moment_world]
    exact h.before
  · rfl
  · rw [visits_eq_trail]
  · rw [List.length_map, h.length]
  · exact Nat.le_add_left 1 k
  · rw [← h.length]
    exact length_trail_le g level ceiling
  · refine ⟨e, hfits, fun e' hfits' => ?_⟩
    rw [hfits.eq_ending h.after_sound, hfits'.eq_ending h.after_sound]
  · exact h.after_sound.exclusive
  · exact h.after_sound.reason
  · rfl
  · rfl
  · rw [← h.after, (finalWorld_scene g level ceiling).stepCount]
    exact (stage_withinBudget g level ceiling).spent

def leaving : Graph where
  nodes := [{ id := "in", kind := .entry }, { id := "wait", kind := .action (some (.known .wait)) },
    { id := "out", kind := .exit }]
  edges := [⟨"1", "in", "wait", none⟩, ⟨"2", "wait", "out", none⟩]

def nook : Level := .plain "nook" (.ofRows ["S"]) ⟨0, 0⟩ .east ⟨.clamp 1, 0⟩ 0

/-- The budget is overspent on the last visit that the ceiling allows, and goes before it. -/
theorem leaving_explained :
    1 ≤ 2 ∧ leaving.entryNode? = some { id := "in", kind := .entry } ∧
      (leaving.run nook 2).outcome.failureReason = some .maxSteps ∧
      ∃ v, (leaving.run nook 2).Explained leaving nook 2 v := by
  refine ⟨by decide, rfl, ?_, run_explained leaving nook (by decide) rfl⟩
  rw [run_eq_stagedRun]
  decide

end Graph
end Flowgraph
