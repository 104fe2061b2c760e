import Flowgraph.Proofs.Advice
import Flowgraph.Proofs.Run.Ending
/-!
# Where a run can get to

The character walks from the start over open cells, a step of the budget for each at least. A start
or a goal that advice calls closed is therefore closed to every run.
-/
namespace Flowgraph

/-- The places that so many moves over open cells of a grid lead to. -/
inductive Grid.Path (grid : Grid) (p : Position) : Nat → Position → Prop where
  | here : Path grid p 0 p
  | ahead {k q} (d : Direction) : Path grid p k q → grid.isOpen (q.ahead d) = true →
      Path grid p (k + 1) (q.ahead d)

theorem Grid.Path.eq_or_open {grid : Grid} {p q : Position} {k : Nat} (h : grid.Path p k q) :
    q = p ∨ grid.isOpen q = true := by
  cases h with
  | here => exact Or.inl rfl
  | ahead d _ ho => exact Or.inr ho

namespace World
variable {level : Level} {w v : World}

/-- The character came on foot, and its grid is the one of the level. -/
structure OnFoot (level : Level) (w : World) : Prop where
  grid : w.grid = level.grid
  path : ∃ k ≤ w.stepCount, level.grid.Path level.startPosition k w.character.position

theorem start_onFoot (level : Level) : OnFoot level level.start :=
  ⟨rfl, 0, Nat.le_refl 0, .here⟩

theorem SameScene.onFoot (h : SameScene w v) (hw : OnFoot level w) : OnFoot level v := by
  obtain ⟨k, hk, hp⟩ := hw.path
  refine ⟨h.grid.trans hw.grid, k, ?_, ?_⟩
  · rw [h.stepCount]
    exact hk
  · rw [h.character]
    exact hp

theorem attempt_position_cases (a : ActionKey) (hw : w.isTerminal = false) :
    (w.attempt a).character.position = w.character.position ∨
      (w.attempt a).character.position = w.ahead ∧ w.grid.isOpen w.ahead = true := by
  cases hb : w.blocked? a with
  | some r =>
    rw [attempt_of_blocked hw hb]
    exact Or.inl rfl
  | none =>
    rw [attempt_position hb]
    by_cases ha : a = .known .move
    · rw [if_pos ha]
      exact Or.inr ⟨rfl, blocked?_eq_none_iff.mp hb ha⟩
    · rw [if_neg ha]
      exact Or.inl rfl

theorem OnFoot.act (h : OnFoot level w) (hw : w.isTerminal = false) (a : ActionKey) :
    OnFoot level (w.act level a) := by
  rw [act_eq_settle]
  refine (settle_scene _ level).onFoot ⟨(attempt_grid w a).trans h.grid, ?_⟩
  obtain ⟨k, hk, hp⟩ := h.path
  rw [attempt_stepCount]
  rcases attempt_position_cases a hw with hpos | ⟨hpos, ho⟩
  · rw [hpos]
    exact ⟨k, by omega, hp⟩
  · rw [hpos]
    exact ⟨k + 1, by omega, hp.ahead _ (h.grid ▸ ho)⟩

def HonestWin (level : Level) (w : World) : Prop :=
  w.isComplete = true → w.character.position = level.goalPosition

theorem HonestWin.act (hw : w.isTerminal = false) (a : ActionKey) :
    HonestWin level (w.act level a) := by
  have he := act_effect level a hw
  have hc := (isTerminal_eq_false_iff.mp hw).1
  generalize w.act level a = u at he
  intro hu
  cases he with
  | blocked => rw [hc] at hu; cases hu
  | reached hb hg => exact hg
  | spent hb =>
    change (w.attempt a).isComplete = true at hu
    rw [(attempt_verdict hb).1, hc] at hu
    cases hu
  | going hb =>
    rw [(attempt_verdict hb).1, hc] at hu
    cases hu

end World

namespace Graph
variable {g : Graph} {level : Level} {ceiling : Nat} {w : World}

/-- The worlds that a run goes through under a ceiling, and the one that it leaves. -/
def Shows (g : Graph) (level : Level) (ceiling : Nat) (w : World) : Prop :=
  (∃ k ≤ ceiling, (g.moment level k).walk.world = w) ∨
    (g.run level ceiling).outcome.finalState = some w

theorem stage_onFoot (g : Graph) (level : Level) (k : Nat) :
    (g.stage level k).world.OnFoot level :=
  world_induction (World.start_onFoot level) (fun _ a hw h => h.act hw a) k

theorem stage_honestWin (g : Graph) (level : Level) (k : Nat) :
    (g.stage level k).world.HonestWin level :=
  world_induction (P := World.HonestWin level) (fun h => by cases h)
    (fun _ a hw _ => World.HonestWin.act hw a) k

theorem Shows.onFoot (h : g.Shows level ceiling w) : w.OnFoot level := by
  rcases h with ⟨k, -, rfl⟩ | h
  · rw [moment_world]
    exact stage_onFoot g level k
  · cases he : g.entryNode? with
    | none =>
      rw [run_of_no_entry he] at h
      cases h
      exact World.start_onFoot level
    | some entry =>
      rw [run_of_entry he] at h
      cases h
      exact (finalWorld_scene g level ceiling).onFoot (stage_onFoot g level ceiling)

theorem position_of_success (h : (g.run level ceiling).outcome.success = true) :
    ∃ w, g.Shows level ceiling w ∧ w.character.position = level.goalPosition := by
  cases he : g.entryNode? with
  | none =>
    rw [run_of_no_entry he] at h
    cases h
  | some entry =>
    refine ⟨g.finalWorld level ceiling, Or.inr (by rw [run_of_entry he]; rfl), ?_⟩
    rw [run_success] at h
    rw [(finalWorld_scene g level ceiling).character]
    exact stage_honestWin g level ceiling h

/-- Every world of a run was reached on foot; so an open start keeps the character on open cells, and
a closed goal that is not the start is never reached. -/
theorem reached_on_foot (g : Graph) (level : Level) (ceiling : Nat) :
    (∀ w, g.Shows level ceiling w →
      w.grid = level.grid ∧
      (∃ k ≤ w.stepCount, level.grid.Path level.startPosition k w.character.position) ∧
      (w.character.position = level.startPosition ∨
        level.grid.isOpen w.character.position = true) ∧
      ∀ g', (level.check g').hasCode ⟨502⟩ = false →
        level.grid.isOpen w.character.position = true) ∧
    ∀ g', (level.check g').hasCode ⟨503⟩ = true → level.startPosition ≠ level.goalPosition →
      (g.run level ceiling).outcome.success = false := by
  have hplace : ∀ w, g.Shows level ceiling w → w.character.position = level.startPosition ∨
      level.grid.isOpen w.character.position = true := by
    intro w hw
    obtain ⟨k, -, hp⟩ := hw.onFoot.path
    exact hp.eq_or_open
  constructor
  · intro w hw
    refine ⟨hw.onFoot.grid, hw.onFoot.path, hplace w hw, fun g' hs => ?_⟩
    rcases hplace w hw with hp | ho
    · rw [hp]
      by_contra hc
      rw [Level.hasCode_startNotOpen.mpr (Bool.eq_false_iff.mpr hc)] at hs
      cases hs
    · exact ho
  · intro g' hg hne
    by_contra hsuccess
    obtain ⟨w, hw, hgoal⟩ := position_of_success (by simpa using hsuccess)
    have hclosed := Level.hasCode_goalNotOpen.mp hg
    rcases hplace w hw with hp | ho
    · exact hne (hp.symm.trans hgoal)
    · rw [hgoal, hclosed] at ho
      cases ho

def walledGoal : Level := .plain "walled" (.ofRows ["S#"]) ⟨0, 0⟩ .east ⟨.clamp 1, 0⟩ 9

def charging : Graph where
  nodes := [{ id := "in", kind := .entry }, { id := "go", kind := .action (some (.known .move)) }]
  edges := [⟨"1", "in", "go", none⟩]

theorem walledGoal_never_won :
    (walledGoal.check charging).hasCode ⟨503⟩ = true ∧
      walledGoal.startPosition ≠ walledGoal.goalPosition ∧
      (charging.run walledGoal 9).outcome.success = false := by
  have hc : (walledGoal.check charging).hasCode ⟨503⟩ = true :=
    Level.hasCode_goalNotOpen.mpr (by decide)
  exact ⟨hc, by decide, (reached_on_foot charging walledGoal 9).2 charging hc (by decide)⟩

end Graph
end Flowgraph
