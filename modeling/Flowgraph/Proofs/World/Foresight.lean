import Flowgraph.Proofs.World.Act
/-!
# Foresight

A question about the way asks whether the cell ahead is open; a move tells three cases of that cell
apart. The two agree: a move is blocked exactly where the answer was that there is a wall, and what is
settled after it does not take the block back.
-/
namespace Flowgraph
namespace World
variable {w u : World} {level : Level}

/-- The world failed for a move into a wall or off the grid. -/
def Bumped (w : World) : Prop :=
  w.isFailed = true ∧ (w.failureReason = some .collision ∨ w.failureReason = some .outOfBounds)

theorem not_bumped (h : w.isFailed = false) : ¬w.Bumped := by
  rintro ⟨hfailed, -⟩
  rw [h] at hfailed
  cases hfailed

/-- What the questions about the way tell of a move that leaves the world `u`. -/
structure Foretold (level : Level) (w u : World) : Prop where
  clear : w.ask level (.known .canMove) = true ↔
    u.character.position = w.ahead ∧ ¬u.Bumped
  wall : w.ask level (.known .wallAhead) = !w.ask level (.known .canMove)
  blocked : w.ask level (.known .canMove) = false →
    u.character = w.character ∧ u.grid = w.grid ∧ u.isFailed = true ∧
      (u.failureReason = some .collision ∧
          (∃ c, w.grid.cell? w.ahead = some c ∧ c.kind = .wall) ∨
        u.failureReason = some .outOfBounds ∧ w.grid.cell? w.ahead = none)
  counted : u.stepCount = w.stepCount + 1
  complete : u.isComplete = true ↔
    w.ask level (.known .canMove) = true ∧ u.character.position = level.goalPosition

theorem attempt_move (ho : w.grid.isOpen w.ahead = true) :
    w.attempt (.known .move) = { w.moveTo w.ahead with
      stepCount := w.stepCount + 1
      lastAction := some .move } := by
  simp only [attempt, perform, Grid.isOpen_iff.mp ho]
  rfl

theorem blocked?_move (ho : w.grid.isOpen w.ahead = true) : w.blocked? (.known .move) = none :=
  blocked?_eq_none_iff.mpr fun _ => ho

theorem act_move_of_open (level : Level) (hw : w.isTerminal = false)
    (ho : w.grid.isOpen w.ahead = true) :
    (w.act level (.known .move)).character = ⟨w.ahead, w.character.direction⟩ ∧
      ¬(w.act level (.known .move)).Bumped ∧
      ((w.act level (.known .move)).isComplete = true ↔ w.ahead = level.goalPosition) := by
  obtain ⟨hc, hf⟩ := isTerminal_eq_false_iff.mp hw
  have he := act_effect level (.known .move) hw
  generalize w.act level (.known .move) = u at he
  cases he with
  | blocked hb =>
    rw [blocked?_move ho] at hb
    cases hb
  | reached hb hg =>
    rw [attempt_move ho] at hg ⊢
    exact ⟨rfl, not_bumped hf, fun _ => hg, fun _ => rfl⟩
  | spent hb hg hm =>
    rw [attempt_move ho] at hg ⊢
    refine ⟨rfl, ?_, fun h => ?_, fun h => absurd h hg⟩
    · rintro ⟨-, hr | hr⟩ <;> cases hr
    · exact absurd (hc.symm.trans h) (by decide)
  | going hb hg hm =>
    rw [attempt_move ho] at hg ⊢
    refine ⟨rfl, not_bumped hf, fun h => ?_, fun h => absurd h hg⟩
    exact absurd (hc.symm.trans h) (by decide)

theorem act_move_of_closed (level : Level) (hw : w.isTerminal = false)
    (ho : w.grid.isOpen w.ahead = false) :
    ∃ reason, w.blocked? (.known .move) = some reason ∧
      w.act level (.known .move) = { w with
        stepCount := w.stepCount + 1
        isFailed := true
        failureReason := some reason
        lastAction := some .moveBlocked } := by
  obtain ⟨reason, hb⟩ : ∃ reason, w.blocked? (.known .move) = some reason := by
    refine Option.ne_none_iff_exists'.mp fun hn => ?_
    rw [blocked?_eq_none_iff.mp hn rfl] at ho
    cases ho
  refine ⟨reason, hb, ?_⟩
  rw [act_eq_settle, attempt_of_blocked hw hb]
  exact if_pos rfl

/-- The questions about the way tell what becomes of a move, in every world without a verdict. -/
theorem move_foretold (level : Level) (hw : w.isTerminal = false) :
    Foretold level w (w.act level (.known .move)) := by
  have hask : w.ask level (.known .canMove) = w.grid.isOpen w.ahead := rfl
  have hwall : w.ask level (.known .wallAhead) = !w.ask level (.known .canMove) := rfl
  have hcount := act_stepCount w level (.known .move)
  cases ho : w.grid.isOpen w.ahead with
  | true =>
    rw [ho] at hask
    obtain ⟨hcharacter, hfree, hcomplete⟩ := act_move_of_open level hw ho
    have hposition : (w.act level (.known .move)).character.position = w.ahead :=
      congrArg Character.position hcharacter
    refine ⟨⟨fun _ => ⟨hposition, hfree⟩, fun _ => hask⟩, hwall, ?_, hcount, ?_⟩
    · intro hclosed
      rw [hask] at hclosed
      cases hclosed
    · rw [hcomplete, hposition]
      exact ⟨fun hg => ⟨hask, hg⟩, fun h => h.2⟩
  | false =>
    rw [ho] at hask
    obtain ⟨reason, hb, hact⟩ := act_move_of_closed level hw ho
    have hlook := (blocked?_eq_some_iff.mp hb).2
    have hnot : ¬w.ask level (.known .canMove) = true := by rw [hask]; decide
    rw [hact]
    refine ⟨⟨fun h => absurd h hnot, ?_⟩, hwall, fun _ => ⟨rfl, rfl, rfl, ?_⟩, rfl, ?_⟩
    · rintro ⟨-, hfree⟩
      refine absurd ⟨rfl, ?_⟩ hfree
      rcases hlook with ⟨rfl, -⟩ | ⟨rfl, -⟩
      · exact Or.inl rfl
      · exact Or.inr rfl
    · rw [Grid.look_eq_wall_iff, Grid.look_eq_outOfBounds_iff] at hlook
      rcases hlook with ⟨rfl, hcell⟩ | ⟨rfl, hcell⟩
      · exact Or.inl ⟨rfl, hcell⟩
      · exact Or.inr ⟨rfl, hcell⟩
    · constructor
      · intro h
        change w.isComplete = true at h
        rw [(isTerminal_eq_false_iff.mp hw).1] at h
        cases h
      · rintro ⟨h, -⟩
        exact absurd h hnot

def ledge : Level := .plain "ledge" (.ofRows ["..G", "."]) ⟨0, 0⟩ .east ⟨.clamp 2, 0⟩ 3

/-- On the goal, with the budget overspent and no cell to the south. -/
def onBrink : World where
  character := ⟨⟨.clamp 2, 0⟩, .south⟩
  grid := ledge.grid
  stepCount := 7

theorem onBrink_foretold :
    onBrink.isTerminal = false ∧ onBrink.character.position = ledge.goalPosition ∧
      onBrink.ask ledge (.known .canMove) = false ∧
      (onBrink.act ledge (.known .move)).character = onBrink.character ∧
      (onBrink.act ledge (.known .move)).failureReason = some .outOfBounds ∧
      (onBrink.act ledge (.known .move)).isComplete = false ∧
      (onBrink.act ledge (.known .move)).stepCount = 8 := by
  have hopen : onBrink.isTerminal = false := by decide
  have hask : onBrink.ask ledge (.known .canMove) = false := by decide
  have hnone : onBrink.grid.cell? onBrink.ahead = none := by decide
  have h := move_foretold ledge hopen
  obtain ⟨hcharacter, -, -, hreason⟩ := h.blocked hask
  refine ⟨hopen, rfl, hask, hcharacter, ?_, ?_, h.counted⟩
  · rcases hreason with ⟨-, c, hc, -⟩ | ⟨hr, -⟩
    · rw [hnone] at hc
      cases hc
    · exact hr
  · rw [Bool.eq_false_iff]
    intro hcomplete
    rw [(h.complete.mp hcomplete).1] at hask
    cases hask

end World
end Flowgraph
