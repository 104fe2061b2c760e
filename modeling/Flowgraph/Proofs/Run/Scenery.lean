import Flowgraph.Proofs.Run.Renaming
import Flowgraph.Proofs.World.Act
/-!
# Scenery

Of a level, a run asks where the character starts and where it has to go, what the budget is, and
whether a place of the grid is walled, open or missing. So levels that agree on that are walked
alike, whatever else is painted on them. With the names and the drawing of a graph this is all of the
display data: none of it shows in a run.
-/
namespace Flowgraph

namespace Grid

/-- Whether a wall stands at a place, if there is a cell. -/
def wall? (g : Grid) (row column : Nat) : Option Bool :=
  (g.rows[row]?.bind (·[column]?)).map fun c => decide (c.kind = .wall)

theorem look_of_walls {g g' : Grid} (h : ∀ row column, g'.wall? row column = g.wall? row column)
    (p : Position) : g'.look p = g.look p := by
  unfold look cell?
  by_cases hp : 0 ≤ p.x.val ∧ 0 ≤ p.y.val
  · rw [if_pos hp, if_pos hp]
    have hw := h p.y.val.toNat p.x.val.toNat
    unfold wall? at hw
    generalize g.rows[p.y.val.toNat]?.bind (·[p.x.val.toNat]?) = c at hw ⊢
    generalize g'.rows[p.y.val.toNat]?.bind (·[p.x.val.toNat]?) = c' at hw ⊢
    cases c with
    | none =>
      rw [Option.map_eq_none_iff.mp hw]
    | some c =>
      obtain ⟨d, rfl, hd⟩ := Option.map_eq_some_iff.mp hw
      simp only [decide_eq_decide.mp hd]
  · rw [if_neg hp, if_neg hp]

end Grid

/-- Two levels that play alike: they differ in what is shown at most. -/
structure Level.SamePlay (l l' : Level) : Prop where
  startPosition : l'.startPosition = l.startPosition
  startDirection : l'.startDirection = l.startDirection
  goalPosition : l'.goalPosition = l.goalPosition
  maxSteps : l'.maxSteps = l.maxSteps
  walls : ∀ row column, l'.grid.wall? row column = l.grid.wall? row column

namespace World
variable {level level' : Level} {G : Grid} {w w' : World}

def onGrid (w : World) (G : Grid) : World := { w with grid := G }

theorem markFailed_onGrid (w : World) (G : Grid) (r : FailureReason) :
    (w.onGrid G).markFailed r = (w.markFailed r).onGrid G := by
  unfold markFailed
  by_cases ht : w.isTerminal = true
  · rw [if_pos ht, if_pos (show (w.onGrid G).isTerminal = true from ht)]
  · rw [if_neg ht, if_neg (show ¬(w.onGrid G).isTerminal = true from ht)]
    rfl

theorem markComplete_onGrid (w : World) (G : Grid) :
    (w.onGrid G).markComplete = w.markComplete.onGrid G := by
  unfold markComplete
  by_cases hf : w.isFailed = true
  · rw [if_pos hf, if_pos (show (w.onGrid G).isFailed = true from hf)]
  · rw [if_neg hf, if_neg (show ¬(w.onGrid G).isFailed = true from hf)]
    rfl

theorem perform_onGrid (h : G.look w.ahead = w.grid.look w.ahead) (a : Action) :
    (w.onGrid G).perform a = (w.perform a).onGrid G := by
  cases a with
  | move =>
    have hl : (w.onGrid G).grid.look (w.onGrid G).ahead = w.grid.look w.ahead := h
    unfold perform
    rw [hl]
    cases w.grid.look w.ahead with
    | free => rfl
    | wall =>
      simp only [markFailed_onGrid]
      rfl
    | outOfBounds =>
      simp only [markFailed_onGrid]
      rfl
  | turnLeft => rfl
  | turnRight => rfl
  | wait => rfl

theorem attempt_onGrid (h : G.look w.ahead = w.grid.look w.ahead) (a : ActionKey) :
    (w.onGrid G).attempt a = (w.attempt a).onGrid G := by
  cases a with
  | known a => exact congrArg countStep (perform_onGrid h a)
  | unknown => rfl

theorem settle_onGrid (hl : level.SamePlay level') (w : World) (G : Grid) :
    (w.onGrid G).settle level' = (w.settle level).onGrid G := by
  unfold settle
  rw [hl.goalPosition, hl.maxSteps, markComplete_onGrid, markFailed_onGrid]
  simp only [apply_ite (onGrid · G)]
  rfl

/-- The second world is the first one, each on the grid of its level. -/
structure Repainted (level level' : Level) (w w' : World) : Prop where
  grid : w.grid = level.grid
  onGrid : w' = w.onGrid level'.grid

namespace Repainted

theorem look (h : Repainted level level' w w') (hl : level.SamePlay level') (p : Position) :
    level'.grid.look p = w.grid.look p := by
  rw [h.grid]
  exact Grid.look_of_walls hl.walls p

theorem start (hl : level.SamePlay level') : Repainted level level' level.start level'.start := by
  refine ⟨rfl, ?_⟩
  unfold Level.start
  rw [hl.startPosition, hl.startDirection]
  rfl

theorem ask (h : Repainted level level' w w') (hl : level.SamePlay level') (p : Predicate) :
    w'.ask level' p = w.ask level p := by
  have hopen : level'.grid.isOpen w.ahead = w.grid.isOpen w.ahead := by
    rw [Grid.isOpen, Grid.isOpen, h.look hl]
  rw [h.onGrid]
  cases p with
  | unknown => rfl
  | known q =>
    cases q with
    | wallAhead => exact congrArg (!·) hopen
    | canMove => exact hopen
    | atGoal => simp only [World.ask, answer, hl.goalPosition]; rfl
    | notAtGoal => simp only [World.ask, answer, hl.goalPosition]; rfl

theorem act (h : Repainted level level' w w') (hl : level.SamePlay level') (a : ActionKey) :
    Repainted level level' (w.act level a) (w'.act level' a) := by
  constructor
  · rw [act_grid]
    exact h.grid
  · rw [h.onGrid, act_eq_settle, act_eq_settle, attempt_onGrid (h.look hl _), settle_onGrid hl]

theorem markFailed (h : Repainted level level' w w') (r : FailureReason) :
    Repainted level level' (w.markFailed r) (w'.markFailed r) := by
  constructor
  · rw [(markFailed_scene w r).grid]
    exact h.grid
  · rw [h.onGrid, markFailed_onGrid]

end Repainted
end World

/-- All of two reports is the same but the messages and the grids. -/
structure Report.SameCourse (r r' : Report) : Prop where
  visited : r'.visited = r.visited
  executionSteps : r'.executionSteps = r.executionSteps
  success : r'.outcome.success = r.outcome.success
  stepCount : r'.outcome.stepCount = r.outcome.stepCount
  failureReason : r'.outcome.failureReason = r.outcome.failureReason
  character : r'.outcome.finalState.map (·.character) = r.outcome.finalState.map (·.character)
  lastAction : r'.outcome.finalState.map (·.lastAction) = r.outcome.finalState.map (·.lastAction)

theorem World.Repainted.sameCourse {level level' : Level} {w w' : World}
    (h : Repainted level level' w w') (steps : Nat) (visited : List String) :
    Report.SameCourse ⟨w.outcome level, steps, visited⟩ ⟨w'.outcome level', steps, visited⟩ := by
  rw [h.onGrid]
  constructor <;> simp only [World.outcome, Outcome.failureReason, World.onGrid, Option.map_some,
    Option.bind_some]

namespace Graph
variable {level level' : Level}

theorem mirrors_of_samePlay (g : Graph) (hl : level.SamePlay level') :
    Mirrors g g level level' (fun n n' => n = n') (World.Repainted level level') where
  entry := rel_refl (fun _ => rfl) g.entryNode?
  start := .start hl
  terminal := by
    intro w w' hw
    rw [hw.onGrid]
    rfl
  follow := by
    rintro n _ w w' rfl hw
    have hsame : g.follow? level' n w' = g.follow? level n w := by
      unfold follow?
      cases n.kind with
      | condition p => simp only [hw.ask hl p]
      | entry => rfl
      | action => rfl
      | loop => rfl
      | exit => rfl
    rw [hsame]
    exact rel_refl (fun _ => rfl) (g.follow? level n w)
  action := by
    rintro n _ rfl
    rfl
  act w w' a hw := hw.act hl a
  callOff w w' hw := hw.markFailed _

theorem run_of_samePlay (g : Graph) (hl : level.SamePlay level') (ceiling : Nat) :
    (g.run level ceiling).SameCourse (g.run level' ceiling) := by
  have hm := g.mirrors_of_samePlay hl
  cases he : g.entryNode? with
  | none =>
    rw [run_of_no_entry he, run_of_no_entry he]
    have hstart := hm.start.onGrid
    exact ⟨rfl, rfl, rfl, rfl, by rw [hstart]; rfl, by rw [hstart]; rfl, by rw [hstart]; rfl⟩
  | some entry =>
    have ht : g.trail level ceiling = g.trail level' ceiling :=
      List.forall₂_eq_eq_eq ▸ hm.trail ceiling
    rw [run_of_entry he, run_of_entry he, ht]
    exact (hm.finalWorld ceiling).sameCourse _ _

/-- Names and drawing do not show in a run. Ids may be renamed, if they stay apart; labels and edge
ids may be any, and so may the mark of an edge that leaves no condition; and of a level only the
start, the goal, the budget and the walls count. -/
theorem display_data_irrelevant (g : Graph) (level : Level) (ceiling : Nat) :
    (∀ f, g.Distinguishes f →
        (g.rename f).run level ceiling =
          { g.run level ceiling with visited := (g.run level ceiling).visited.map f }) ∧
      (∀ g', Redrawn id g g' → g'.run level ceiling = g.run level ceiling) ∧
      ∀ level', level.SamePlay level' →
        (g.run level ceiling).SameCourse (g.run level' ceiling) := by
  refine ⟨?_, ?_, ?_⟩
  · intro f hf
    exact (rename_redrawn f g).run hf level ceiling
  · intro g' h
    have hrun := h.run (fun _ _ _ _ hab => hab) level ceiling
    rwa [List.map_id] at hrun
  · intro level' hl
    exact g.run_of_samePlay hl ceiling

def strolling : Graph where
  nodes := [{ id := "in", kind := .entry }, { id := "ask", kind := .condition (.known .canMove) },
    { id := "go", kind := .action (some (.known .move)) }, { id := "out", kind := .exit }]
  edges := [⟨"1", "in", "ask", none⟩, ⟨"2", "ask", "go", some true⟩,
    ⟨"3", "ask", "out", some false⟩, ⟨"4", "go", "ask", none⟩]

def strollingAnew : Graph where
  nodes := strolling.nodes.map fun n => { n with label := "Step " ++ n.id }
  edges := [⟨"a", "in", "ask", some false⟩, ⟨"b", "ask", "go", some true⟩,
    ⟨"b", "ask", "out", some false⟩, ⟨"c", "go", "ask", some true⟩]

def swapEnds (id : String) : String :=
  if id = "in" then "out" else if id = "out" then "in" else id

def meadow : Level :=
  .plain "meadow" ⟨[[⟨.start, 0, 0⟩, ⟨.empty, .clamp 1, 0⟩, ⟨.goal, .clamp 2, 0⟩]]⟩ ⟨0, 0⟩ .east
    ⟨.clamp 2, 0⟩ 2

/-- The same three places, repainted and misnumbered, with a row of nothing below. -/
def repainted : Level :=
  { meadow with
    name := "Treasure hunt"
    grid := ⟨[[⟨.goal, 0, 0⟩, ⟨.treasure, .clamp 7, 0⟩, ⟨.start, 0, .clamp 3⟩], []]⟩
    minSteps := some 2 }

theorem meadow_samePlay_repainted : meadow.SamePlay repainted where
  startPosition := rfl
  startDirection := rfl
  goalPosition := rfl
  maxSteps := rfl
  walls
    | 0, 0 => rfl
    | 0, 1 => rfl
    | 0, 2 => rfl
    | 0, _ + 3 => rfl
    | 1, _ => rfl
    | _ + 2, _ => rfl

theorem strolling_display_irrelevant :
    strolling.Distinguishes swapEnds ∧ Redrawn id strolling strollingAnew ∧
      meadow.SamePlay repainted ∧
      (strolling.run meadow 9).visited = ["in", "ask", "go", "ask", "go"] ∧
      ((strolling.rename swapEnds).run meadow 9).visited = ["out", "ask", "go", "ask", "go"] ∧
      strollingAnew.run meadow 9 = strolling.run meadow 9 ∧
      (strolling.run repainted 9).visited = ["in", "ask", "go", "ask", "go"] := by
  have hf : strolling.Distinguishes swapEnds := by decide
  have hdrawn : Redrawn id strolling strollingAnew :=
    ⟨by simp [strolling, strollingAnew], by simp [strolling, strollingAnew]; decide⟩
  have hv : (strolling.run meadow 9).visited = ["in", "ask", "go", "ask", "go"] := by
    rw [run_eq_stagedRun]
    decide
  obtain ⟨hrename, hredraw, hrepaint⟩ := display_data_irrelevant strolling meadow 9
  refine ⟨hf, hdrawn, meadow_samePlay_repainted, hv, ?_, hredraw _ hdrawn, ?_⟩
  · rw [hrename swapEnds hf]
    simp only [hv]
    decide
  · exact (hrepaint repainted meadow_samePlay_repainted).visited.trans hv

end Graph
end Flowgraph
