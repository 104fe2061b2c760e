import Flowgraph.Proofs.World.Act
/-!
# Verdicts

A world is marked with its verdict, and around that the character is put somewhere, faced somewhere,
and given another grid. The first mark decides: a failure is not taken back by a later success, and a
success not by a later failure. Marks leave the scene alone, and of the scene the last word counts.
-/
namespace Flowgraph
namespace World

inductive Mark where
  | complete
  | failed (reason : FailureReason)
  deriving DecidableEq

def Mark.reason? : Mark → Option FailureReason
  | complete => none
  | failed reason => some reason

def mark (w : World) : Mark → World
  | .complete => w.markComplete
  | .failed reason => w.markFailed reason

inductive Update where
  | mark (m : Mark)
  | place (p : Position)
  | face (d : Direction)
  | redraw (g : Grid)

namespace Update

def mark? : Update → Option Mark
  | mark m => some m
  | _ => none

def position? : Update → Option Position
  | place p => some p
  | _ => none

def direction? : Update → Option Direction
  | face d => some d
  | _ => none

def grid? : Update → Option Grid
  | redraw g => some g
  | _ => none

end Update

def update (w : World) : Update → World
  | .mark m => w.mark m
  | .place p => w.moveTo p
  | .face d => w.face d
  | .redraw g => { w with grid := g }

/-- What some updates leave for a world, the first of them done first. -/
def updated (w : World) (updates : List Update) : World := updates.foldl update w

/-- What the last of some updates that says anything says, and else what was there before. -/
def lastWord {α : Type} (says? : Update → Option α) (updates : List Update) (before : α) : α :=
  (updates.reverse.findSome? says?).getD before

/-- What a world shows of the mark that decided it, if there is one. -/
structure DecidedBy (w : World) (m : Option Mark) : Prop where
  complete : w.isComplete = true ↔ m = some .complete
  failed : w.isFailed = true ↔ ∃ reason, m = some (.failed reason)
  reason : w.failureReason = m.bind Mark.reason?

variable {w : World} {m : Option Mark}

theorem start_decidedBy (level : Level) : level.start.DecidedBy none := by
  constructor
  · simp [Level.start]
  · simp [Level.start]
  · rfl

theorem DecidedBy.sound (h : w.DecidedBy m) : w.Sound := by
  constructor
  · rintro ⟨hcomplete, hfailed⟩
    obtain ⟨reason, hm⟩ := h.failed.mp hfailed
    rw [h.complete.mp hcomplete] at hm
    cases hm
  · rw [h.reason, Bool.eq_iff_iff, h.failed]
    cases m with
    | none => simp
    | some mark => cases mark <;> simp [Mark.reason?]

theorem isTerminal_of_decidedBy {mark : Mark} (h : w.DecidedBy (some mark)) :
    w.isTerminal = true := by
  cases mark with
  | complete => exact isTerminal_of_complete (h.complete.mpr rfl)
  | failed reason => exact isTerminal_of_failed (h.failed.mpr ⟨reason, rfl⟩)

/-- Two worlds with one verdict. -/
structure SameVerdict (w v : World) : Prop where
  complete : v.isComplete = w.isComplete
  failed : v.isFailed = w.isFailed
  reason : v.failureReason = w.failureReason

theorem DecidedBy.of_sameVerdict {v : World} (h : w.DecidedBy m) (hs : SameVerdict w v) :
    v.DecidedBy m := by
  constructor
  · rw [hs.complete, h.complete]
  · rw [hs.failed, h.failed]
  · rw [hs.reason, h.reason]

theorem mark_of_decided {first : Mark} (h : w.DecidedBy (some first)) (next : Mark) :
    SameVerdict w (w.mark next) := by
  cases next with
  | failed reason =>
    rw [mark, markFailed, if_pos (isTerminal_of_decidedBy h)]
    exact ⟨rfl, rfl, rfl⟩
  | complete =>
    rw [mark, markComplete]
    split
    · exact ⟨rfl, rfl, rfl⟩
    · next hf =>
      -- not a failure, so it was decided by a success: setting that once more changes nothing
      have hc : w.isComplete = true := by
        cases first with
        | complete => exact h.complete.mpr rfl
        | failed reason => exact absurd (h.failed.mpr ⟨reason, rfl⟩) hf
      exact ⟨hc.symm, rfl, rfl⟩

theorem DecidedBy.mark (h : w.DecidedBy m) (next : Mark) :
    (w.mark next).DecidedBy (m.or (some next)) := by
  cases m with
  | some first =>
    rw [Option.some_or]
    exact h.of_sameVerdict (mark_of_decided h next)
  | none =>
    have hc : w.isComplete = false := by simpa using h.complete
    have hf : w.isFailed = false := by simpa using h.failed
    have hr : w.failureReason = none := h.reason
    cases next with
    | complete => constructor <;> simp [World.mark, markComplete, hf, hr, Mark.reason?]
    | failed reason =>
      rw [World.mark, markFailed_of_open (isTerminal_eq_false_iff.mpr ⟨hc, hf⟩)]
      constructor <;> simp [hc, Mark.reason?]

theorem update_of_unmarked {u : Update} (hu : u.mark? = none) : SameVerdict w (w.update u) := by
  cases u with
  | mark m => cases hu
  | place p => exact ⟨rfl, rfl, rfl⟩
  | face d => exact ⟨rfl, rfl, rfl⟩
  | redraw g => exact ⟨rfl, rfl, rfl⟩

theorem DecidedBy.update (h : w.DecidedBy m) (u : Update) :
    (w.update u).DecidedBy (m.or u.mark?) := by
  cases hu : u.mark? with
  | none =>
    rw [Option.or_none]
    exact h.of_sameVerdict (update_of_unmarked hu)
  | some next =>
    obtain rfl : u = .mark next := by
      cases u with
      | mark m => exact congrArg Update.mark (Option.some.inj hu)
      | place p => cases hu
      | face d => cases hu
      | redraw g => cases hu
    exact h.mark next

theorem DecidedBy.updated (h : w.DecidedBy m) (updates : List Update) :
    (w.updated updates).DecidedBy (m.or (updates.findSome? Update.mark?)) := by
  induction updates generalizing w m with
  | nil =>
    rw [List.findSome?_nil, Option.or_none]
    exact h
  | cons u updates ih =>
    have hfirst : (u :: updates).findSome? Update.mark? =
        u.mark?.or (updates.findSome? Update.mark?) := by
      rw [List.findSome?_cons]
      cases u.mark? <;> rfl
    rw [hfirst, ← Option.or_assoc]
    exact ih (h.update u)

theorem mark_scene (w : World) (m : Mark) : w.SameScene (w.mark m) := by
  cases m with
  | complete => exact markComplete_scene w
  | failed reason => exact markFailed_scene w reason

theorem updated_lastWord {α : Type} (part : World → α) {says? : Update → Option α}
    (h : ∀ w u, part (World.update w u) = (says? u).getD (part w)) (w : World)
    (updates : List Update) :
    part (w.updated updates) = lastWord says? updates (part w) := by
  induction updates generalizing w with
  | nil => rfl
  | cons u updates ih =>
    rw [updated, List.foldl_cons, ← updated, ih, h, lastWord, lastWord, List.reverse_cons,
      List.findSome?_append]
    cases updates.reverse.findSome? says? with
    | some a => rfl
    | none => cases hu : says? u <;> simp [hu]

theorem update_scene (w : World) (u : Update) :
    (w.update u).character =
        ⟨u.position?.getD w.character.position, u.direction?.getD w.character.direction⟩ ∧
      (w.update u).grid = u.grid?.getD w.grid ∧
      (w.update u).stepCount = w.stepCount ∧
      (w.update u).lastAction = w.lastAction := by
  cases u with
  | mark m =>
    have h := mark_scene w m
    exact ⟨h.character, h.grid, h.stepCount, h.lastAction⟩
  | place p => exact ⟨rfl, rfl, rfl, rfl⟩
  | face d => exact ⟨rfl, rfl, rfl, rfl⟩
  | redraw g => exact ⟨rfl, rfl, rfl, rfl⟩

theorem updated_character (w : World) (updates : List Update) :
    (w.updated updates).character =
      ⟨lastWord Update.position? updates w.character.position,
        lastWord Update.direction? updates w.character.direction⟩ := by
  have hposition := updated_lastWord (fun w => w.character.position)
    (fun w u => congrArg Character.position (update_scene w u).1) w updates
  have hdirection := updated_lastWord (fun w => w.character.direction)
    (fun w u => congrArg Character.direction (update_scene w u).1) w updates
  calc (w.updated updates).character
    _ = ⟨(w.updated updates).character.position, (w.updated updates).character.direction⟩ := rfl
    _ = _ := by rw [hposition, hdirection]

theorem updated_grid (w : World) (updates : List Update) :
    (w.updated updates).grid = lastWord Update.grid? updates w.grid :=
  updated_lastWord (·.grid) (fun w u => (update_scene w u).2.1) w updates

theorem updated_tally (w : World) (updates : List Update) :
    (w.updated updates).stepCount = w.stepCount ∧ (w.updated updates).lastAction = w.lastAction := by
  induction updates generalizing w with
  | nil => exact ⟨rfl, rfl⟩
  | cons u updates ih =>
    obtain ⟨-, -, hcount, hnote⟩ := update_scene w u
    obtain ⟨hcounts, hnotes⟩ := ih (w.update u)
    exact ⟨hcounts.trans hcount, hnotes.trans hnote⟩

/-- Whatever is done to a world from the start on, the first mark decides it, with its reason, and no
mark touches the scene. The scene is as it was set last; no step is counted and no action noted. -/
theorem first_mark_decides (level : Level) (updates : List Update) :
    (level.start.updated updates).DecidedBy (updates.findSome? Update.mark?) ∧
      ¬((level.start.updated updates).isComplete = true ∧
        (level.start.updated updates).isFailed = true) ∧
      (level.start.updated updates).failureReason.isSome =
        (level.start.updated updates).isFailed ∧
      (∀ m, (level.start.updated updates).SameScene ((level.start.updated updates).mark m)) ∧
      (level.start.updated updates).character =
        ⟨lastWord Update.position? updates level.startPosition,
          lastWord Update.direction? updates level.startDirection⟩ ∧
      (level.start.updated updates).grid = lastWord Update.grid? updates level.grid ∧
      (level.start.updated updates).stepCount = 0 ∧
      (level.start.updated updates).lastAction = none := by
  have hdecided := (start_decidedBy level).updated updates
  rw [Option.none_or] at hdecided
  obtain ⟨hcount, hnote⟩ := updated_tally level.start updates
  exact ⟨hdecided, hdecided.sound.exclusive, hdecided.sound.reason, mark_scene _,
    updated_character level.start updates, updated_grid level.start updates, hcount, hnote⟩

/-- A success is not taken back by being failed for the budget. -/
example (level : Level) (p : Position) :
    let w := level.start.updated
      [.place p, .mark .complete, .mark (.failed .maxSteps), .face .north, .mark .complete]
    w.isComplete = true ∧ w.isFailed = false ∧ w.failureReason = none :=
  ⟨rfl, rfl, rfl⟩

end World
end Flowgraph
