import Flowgraph.Proofs.Bearing
import Flowgraph.Proofs.Run.Cutoff
import Flowgraph.Proofs.Run.Marks
import Flowgraph.Proofs.World.Foresight
/-!
# Straight to the goal

The program that moves for as long as it is not on the goal. Two visits make a round: the question,
and a move of one place. It succeeds exactly when the goal lies straight ahead over open cells, and
both the budget and the ceiling let it get there. It has no success to show when it starts on the
goal, since only an action is followed by a look for the goal.
-/
namespace Flowgraph

/-- The goal lies so many places straight ahead of the start, and no cell up to it is closed. -/
structure Level.GoalAhead (level : Level) (d : Nat) : Prop where
  pos : 1 ≤ d
  goal : level.startPosition.Along level.startDirection d level.goalPosition
  clear : ∀ i, 1 ≤ i → i ≤ d →
    ∃ p, level.startPosition.Along level.startDirection i p ∧ level.grid.isOpen p = true

/-- The program, in whatever order its nodes and edges were drawn. What the edges into the question
are marked for does not matter, since no condition is left by them. -/
structure Graph.Beeline (g : Graph) (entry ask go out : Node) : Prop where
  nodes : g.nodes.Perm [entry, ask, go, out]
  distinct : [entry.id, ask.id, go.id, out.id].Nodup
  entry_kind : entry.kind = .entry
  ask_kind : ask.kind = .condition (.known .notAtGoal)
  go_kind : go.kind = .action (some (.known .move))
  out_kind : out.kind = .exit
  edges : ∃ e₁ e₂ e₃ e₄ b₁ b₄, g.edges.Perm
    [⟨e₁, entry.id, ask.id, b₁⟩, ⟨e₂, ask.id, go.id, some true⟩,
      ⟨e₃, ask.id, out.id, some false⟩, ⟨e₄, go.id, ask.id, b₄⟩]

namespace Level
variable {level : Level} {i : Nat}

/-- Where so many steps ahead lead from the start. -/
def place (level : Level) (i : Nat) : Position := level.startPosition.steps level.startDirection i

theorem place_succ (level : Level) (i : Nat) :
    level.place (i + 1) = (level.place i).ahead level.startDirection :=
  Position.steps_succ ..

/-- So many moves can be made, with budget left and the goal not met by them. -/
structure Underway (level : Level) (i : Nat) : Prop where
  missed : ∀ j ≤ i, level.place j ≠ level.goalPosition
  clear : ∀ j, 1 ≤ j → j ≤ i → level.grid.isOpen (level.place j) = true
  left : i < level.budget

/-- One more move after so many is the one onto the goal. -/
structure Arrives (level : Level) (i : Nat) : Prop where
  underway : level.Underway i
  clear : level.grid.isOpen (level.place (i + 1)) = true
  goal : level.place (i + 1) = level.goalPosition

theorem underway_zero (h : level.startPosition ≠ level.goalPosition) : level.Underway 0 := by
  constructor
  · intro j hj
    obtain rfl := Nat.le_zero.mp hj
    exact h
  · intro j hj hj'
    omega
  · unfold budget
    omega

theorem Underway.succ (h : level.Underway i)
    (hclear : level.grid.isOpen (level.place (i + 1)) = true)
    (hgoal : level.place (i + 1) ≠ level.goalPosition) (hleft : i + 1 < level.budget) :
    level.Underway (i + 1) := by
  constructor
  · intro j hj
    rcases Nat.le_succ_iff.mp hj with hj | rfl
    · exact h.missed j hj
    · exact hgoal
  · intro j hj hj'
    rcases Nat.le_succ_iff.mp hj' with hj' | rfl
    · exact h.clear j hj hj'
    · exact hclear
  · exact hleft

theorem Underway.pred (h : level.Underway (i + 1)) : level.Underway i :=
  ⟨fun j hj => h.missed j (Nat.le_succ_of_le hj),
    fun j hj hj' => h.clear j hj (Nat.le_succ_of_le hj'), Nat.lt_of_succ_lt h.left⟩

theorem exists_last_underway (h : level.startPosition ≠ level.goalPosition) :
    ∃ i, level.Underway i ∧ ¬level.Underway (i + 1) := by
  by_contra hnone
  have hall : ∀ i, level.Underway i := by
    intro i
    induction i with
    | zero => exact underway_zero h
    | succ i ih => exact Classical.byContradiction fun hn => hnone ⟨i, ih, hn⟩
  exact Nat.lt_irrefl _ (hall level.budget).left

theorem Arrives.goalAhead (h : level.Arrives i) : level.GoalAhead (i + 1) := by
  have hsteps : level.startPosition.Along level.startDirection (i + 1) (level.place (i + 1)) := by
    rcases Position.along_steps_or_stayed level.startPosition level.startDirection (i + 1) with
      hsteps | ⟨j, hj, hstays⟩
    · exact hsteps
    · have hsame : level.place (i + 1) = level.place j :=
        Position.steps_of_stayed hstays (Nat.le_of_lt hj)
      exact absurd (hsame.symm.trans h.goal) (h.underway.missed j (Nat.le_of_lt_succ hj))
  constructor
  · exact Nat.le_add_left 1 i
  · rw [← h.goal]
    exact hsteps
  · intro j hj hj'
    refine ⟨level.place j, hsteps.steps hj', ?_⟩
    rcases Nat.le_succ_iff.mp hj' with hj' | rfl
    · exact h.underway.clear j hj hj'
    · exact h.clear

theorem GoalAhead.arrives (h : level.GoalAhead (i + 1)) (hbudget : i + 1 ≤ level.budget) :
    level.Arrives i := by
  have hsteps : ∀ j ≤ i + 1, level.startPosition.Along level.startDirection j (level.place j) :=
    fun j hj => h.goal.steps hj
  have hclear : ∀ j, 1 ≤ j → j ≤ i + 1 → level.grid.isOpen (level.place j) = true := by
    intro j hj hj'
    obtain ⟨p, hp, hopen⟩ := h.clear j hj hj'
    rwa [(hsteps j hj').unique hp]
  constructor
  · constructor
    · intro j hj hgoal
      have hahead := hsteps j (Nat.le_succ_of_le hj)
      rw [hgoal] at hahead
      have hdistance := hahead.distance_unique h.goal
      omega
    · intro j hj hj'
      exact hclear j hj (Nat.le_succ_of_le hj')
    · exact hbudget
  · exact hclear (i + 1) (Nat.le_add_left 1 i) (Nat.le_refl _)
  · exact (hsteps (i + 1) (Nat.le_refl _)).unique h.goal

end Level

namespace World
variable {level : Level} {w : World} {i : Nat}

/-- The world after so many moves ahead, without a verdict. -/
structure Striding (level : Level) (i : Nat) (w : World) : Prop where
  going : w.isTerminal = false
  character : w.character = ⟨level.place i, level.startDirection⟩
  grid : w.grid = level.grid
  stepCount : w.stepCount = i

theorem start_striding (level : Level) : Striding level 0 level.start := ⟨rfl, rfl, rfl, rfl⟩

theorem Striding.ahead (h : Striding level i w) : w.ahead = level.place (i + 1) := by
  rw [World.ahead, h.character, Level.place_succ]

theorem Striding.isOpen_ahead (h : Striding level i w) :
    w.grid.isOpen w.ahead = level.grid.isOpen (level.place (i + 1)) := by
  rw [h.grid, h.ahead]

inductive Stride (level : Level) (i : Nat) (w : World) : Prop where
  | going (hi : level.Underway (i + 1)) (hw : Striding level (i + 1) w)
  | arrived (hi : level.Arrives i) (hcomplete : w.isComplete = true)
  | stopped (hi : ¬level.Underway (i + 1)) (harrives : ¬level.Arrives i)
      (hterminal : w.isTerminal = true) (hcomplete : w.isComplete = false)

theorem Striding.move (h : Striding level i w) (hi : level.Underway i) :
    Stride level i (w.act level (.known .move)) := by
  obtain ⟨hwc, -⟩ := isTerminal_eq_false_iff.mp h.going
  by_cases hopen : level.grid.isOpen (level.place (i + 1)) = true
  · have hahead := h.ahead
    have hmove := attempt_move (h.isOpen_ahead.trans hopen)
    have he := act_effect level (.known .move) h.going
    generalize w.act level (.known .move) = u at he
    cases he with
    | blocked hb =>
      rw [blocked?_move (h.isOpen_ahead.trans hopen)] at hb
      cases hb
    | reached hb hg =>
      rw [hmove] at hg
      exact .arrived ⟨hi, hopen, hahead.symm.trans hg⟩ rfl
    | spent hb hg hm =>
      rw [hmove] at hg ⊢
      refine .stopped (fun hnext => ?_) (fun harrives => ?_) ?_ hwc
      · have hleft := hnext.left
        rw [h.stepCount] at hm
        unfold Level.budget at hleft
        omega
      · exact hg (hahead.trans harrives.goal)
      · exact isTerminal_of_failed rfl
    | going hb hg hm =>
      rw [hmove] at hg ⊢
      rw [h.stepCount] at hm
      refine .going (hi.succ hopen ?_ ?_) ⟨h.going, ?_, h.grid, ?_⟩
      · rw [← hahead]
        exact hg
      · unfold Level.budget
        omega
      · change Character.mk w.ahead w.character.direction = _
        rw [hahead, h.character]
      · exact congrArg (· + 1) h.stepCount
  · have hclosed : w.grid.isOpen w.ahead = false := by
      rw [h.isOpen_ahead]
      exact Bool.eq_false_iff.mpr hopen
    obtain ⟨reason, -, hact⟩ := act_move_of_closed level h.going hclosed
    rw [hact]
    refine .stopped (fun hnext => ?_) (fun harrives => hopen harrives.clear) ?_ hwc
    · exact hopen (hnext.clear (i + 1) (Nat.le_add_left 1 i) (Nat.le_refl _))
    · exact isTerminal_of_failed rfl

end World

namespace Graph
variable {g : Graph} {level : Level}

theorem isComplete_of_over {k m : Nat} (hm : (g.stage level m).current? = none)
    (hk : (g.stage level k).world.isComplete = true) :
    (g.stage level m).world.isComplete = true := by
  have ho : (g.stage level k).current? = none :=
    Stage.current?_of_terminal (World.isTerminal_of_complete hk)
  rcases Nat.le_total k m with hkm | hmk
  · rw [stage_of_over ho hkm]
    exact hk
  · rw [stage_of_over hm hmk] at hk
    exact hk

theorem outgoing_perm {es : List Edge} (h : g.edges.Perm es) (id : String) :
    (g.outgoing id).Perm (es.filter (·.source == id)) := h.filter _

namespace Beeline
variable {entry ask go out : Node} {w : World} {i : Nat}

theorem node?_eq (h : g.Beeline entry ask go out) {n : Node} (hn : n ∈ [entry, ask, go, out]) :
    g.node? n.id = some n := by
  have hd : (g.nodes.map Node.id).Nodup := (h.nodes.map Node.id).nodup_iff.mpr h.distinct
  exact node?_of_mem hd (h.nodes.mem_iff.mpr hn)

theorem entryNode?_eq (h : g.Beeline entry ask go out) : g.entryNode? = some entry := by
  have hp := h.nodes.filter (·.tag == .entry)
  have hone : [entry, ask, go, out].filter (·.tag == .entry) = [entry] := by
    simp [Node.tag, h.entry_kind, h.ask_kind, h.go_kind, h.out_kind, Kind.tag]
  rw [hone, List.perm_singleton] at hp
  rw [entryNode?, nodesOf, hp, List.head?_cons]

theorem next?_eq (h : g.Beeline entry ask go out) {n : Node} (hn : n ∈ [entry, go]) :
    g.next? n = some ask := by
  obtain ⟨e₁, e₂, e₃, e₄, b₁, b₄, hedges⟩ := h.edges
  have hd := h.distinct
  simp only [List.nodup_cons, List.mem_cons, not_or] at hd
  obtain ⟨⟨hea, heg, -⟩, ⟨hag, -⟩, -⟩ := hd
  obtain ⟨e, hout, htarget⟩ : ∃ e, g.outgoing n.id = [e] ∧ e.target = ask.id := by
    have hp := outgoing_perm hedges n.id
    rcases List.mem_pair.mp hn with rfl | rfl
    · exact ⟨⟨e₁, n.id, ask.id, b₁⟩, by simpa [Ne.symm hea, Ne.symm heg] using hp, rfl⟩
    · exact ⟨⟨e₄, n.id, ask.id, b₄⟩, by simpa [heg, hag] using hp, rfl⟩
  rw [next?, hout, List.head?_cons, Option.bind_some, target?, htarget]
  exact h.node?_eq (by simp)

theorem branch_eq (h : g.Beeline entry ask go out) (b : Bool) :
    (g.branchEdge? ask b).bind g.target? = some (if b then go else out) := by
  obtain ⟨e₁, e₂, e₃, e₄, b₁, b₄, hedges⟩ := h.edges
  have hd := h.distinct
  simp only [List.nodup_cons, List.mem_cons, not_or] at hd
  obtain ⟨⟨hea, -⟩, ⟨hag, -⟩, -⟩ := hd
  have hout : ∀ e, e ∈ g.outgoing ask.id ↔
      e = ⟨e₂, ask.id, go.id, some true⟩ ∨ e = ⟨e₃, ask.id, out.id, some false⟩ := by
    intro e
    rw [(outgoing_perm hedges ask.id).mem_iff]
    simp [hea, Ne.symm hag]
  have hmarked : ∃ e ∈ g.outgoing ask.id, e.branch = some b := by
    cases b with
    | true => exact ⟨_, (hout _).mpr (Or.inl rfl), rfl⟩
    | false => exact ⟨_, (hout _).mpr (Or.inr rfl), rfl⟩
  obtain ⟨e, he, hb⟩ := branchEdge?_of_marked hmarked
  rw [he, Option.bind_some, target?]
  rcases (hout e).mp (mem_of_branchEdge? he) with rfl | rfl
  · cases hb
    exact h.node?_eq (by simp)
  · cases hb
    exact h.node?_eq (by simp)

theorem advance_entry (h : g.Beeline entry ask go out) (hw : w.isTerminal = false) :
    g.advance level ⟨some entry, w⟩ = ⟨some ask, w⟩ := by
  have hnext := h.next?_eq (n := entry) (by simp)
  rw [advance_of_current (Stage.current?_eq_some_iff.mpr ⟨hw, rfl⟩)]
  simp only [follow?, Node.work, Node.action?, h.entry_kind, hnext]

theorem advance_ask (h : g.Beeline entry ask go out) (hw : w.isTerminal = false) :
    g.advance level ⟨some ask, w⟩ =
      ⟨some (if w.character.position = level.goalPosition then out else go), w⟩ := by
  have hbranch := h.branch_eq (w.ask level (.known .notAtGoal))
  rw [advance_of_current (Stage.current?_eq_some_iff.mpr ⟨hw, rfl⟩)]
  simp only [follow?, Node.work, Node.action?, h.ask_kind, hbranch]
  by_cases hg : w.character.position = level.goalPosition
  · simp [World.ask, World.answer, hg]
  · simp [World.ask, World.answer, hg]

theorem advance_go (h : g.Beeline entry ask go out) (hw : w.isTerminal = false) :
    g.advance level ⟨some go, w⟩ = ⟨some ask, w.act level (.known .move)⟩ := by
  have hnext := h.next?_eq (n := go) (by simp)
  rw [advance_of_current (Stage.current?_eq_some_iff.mpr ⟨hw, rfl⟩)]
  simp only [follow?, Node.work, Node.action?, h.go_kind, hnext]

theorem advance_out (h : g.Beeline entry ask go out) (hw : w.isTerminal = false) :
    g.advance level ⟨some out, w⟩ = ⟨none, w⟩ := by
  rw [advance_of_current (Stage.current?_eq_some_iff.mpr ⟨hw, rfl⟩)]
  simp only [follow?, Node.work, Node.action?, h.out_kind]

/-- The question after so many rounds. -/
structure Asking (g : Graph) (level : Level) (ask : Node) (i : Nat) (w : World) : Prop where
  stage : g.stage level (2 * i + 1) = ⟨some ask, w⟩
  striding : w.Striding level i

/-- A round goes from the question to the move, and back to the question. -/
theorem Asking.round (h : g.Beeline entry ask go out) (ha : Asking g level ask i w)
    (hi : level.Underway i) :
    (g.stage level (2 * i + 2)).current? = some go ∧
      g.stage level (2 * i + 3) = ⟨some ask, w.act level (.known .move)⟩ := by
  have hoff : w.character.position ≠ level.goalPosition := by
    rw [ha.striding.character]
    exact hi.missed i (Nat.le_refl i)
  have hgo : g.stage level (2 * i + 2) = ⟨some go, w⟩ := by
    rw [stage_succ, ha.stage, h.advance_ask ha.striding.going, if_neg hoff]
  constructor
  · rw [hgo]
    exact Stage.current?_eq_some_iff.mpr ⟨ha.striding.going, rfl⟩
  · rw [stage_succ, hgo, h.advance_go ha.striding.going]

theorem asking_zero (h : g.Beeline entry ask go out) (level : Level) :
    Asking g level ask 0 level.start := by
  refine ⟨?_, World.start_striding level⟩
  have h0 : g.stage level 0 = ⟨some entry, level.start⟩ := congrArg (Stage.mk · _) h.entryNode?_eq
  rw [stage_succ, h0, h.advance_entry rfl]

/-- The loop invariant: while moves can be made, each round makes one. -/
theorem exists_asking (h : g.Beeline entry ask go out) (hi : level.Underway i) :
    ∃ w, Asking g level ask i w := by
  induction i with
  | zero => exact ⟨level.start, h.asking_zero level⟩
  | succ i ih =>
    obtain ⟨w, ha⟩ := ih hi.pred
    obtain ⟨-, hback⟩ := Asking.round h ha hi.pred
    cases ha.striding.move hi.pred with
    | going _ hw => exact ⟨_, hback, hw⟩
    | arrived harrives => exact absurd harrives.goal (hi.missed (i + 1) (Nat.le_refl _))
    | stopped hnot => exact absurd hi hnot

theorem over_of_start (h : g.Beeline entry ask go out)
    (hstart : level.startPosition = level.goalPosition) :
    g.stage level 3 = ⟨none, level.start⟩ := by
  have hout : g.stage level 2 = ⟨some out, level.start⟩ := by
    have hon : level.start.character.position = level.goalPosition := hstart
    rw [stage_succ, (h.asking_zero level).stage, h.advance_ask rfl, if_pos hon]
  rw [stage_succ, hout, h.advance_out rfl]

theorem stage_of_arrives (h : g.Beeline entry ask go out) (hi : level.Arrives i) {c : Nat}
    (hc : 2 * i + 3 ≤ c) :
    (g.stage level c).world.isComplete = true ∧ (g.stage level c).world.stepCount = i + 1 ∧
      (g.trail level c).length = 2 * i + 3 := by
  obtain ⟨w, ha⟩ := h.exists_asking hi.underway
  obtain ⟨hgo, hback⟩ := Asking.round h ha hi.underway
  have hcomplete : (w.act level (.known .move)).isComplete = true := by
    cases ha.striding.move hi.underway with
    | going hnext => exact absurd hi.goal (hnext.missed (i + 1) (Nat.le_refl _))
    | arrived _ hcomplete => exact hcomplete
    | stopped _ hnot => exact absurd hi hnot
  have hover : (g.stage level (2 * i + 3)).current? = none := by
    rw [hback]
    exact Stage.current?_of_terminal (World.isTerminal_of_complete hcomplete)
  rw [stage_of_over hover hc, trail_of_over hover hc, hback]
  refine ⟨hcomplete, ?_, ?_⟩
  · rw [World.act_stepCount, ha.striding.stepCount]
  · rw [trail_succ, List.length_append, length_trail_of_current hgo, hgo]
    rfl

theorem exists_arrives (h : g.Beeline entry ask go out) {c : Nat}
    (hc : (g.stage level c).world.isComplete = true) :
    ∃ i, level.Arrives i ∧ 2 * i + 3 ≤ c := by
  have hstart : level.startPosition ≠ level.goalPosition := by
    intro hstart
    have hover := h.over_of_start hstart
    have hcomplete := isComplete_of_over (m := 3) (by rw [hover]; rfl) hc
    rw [hover] at hcomplete
    cases hcomplete
  obtain ⟨i, hi, hlast⟩ := Level.exists_last_underway hstart
  obtain ⟨w, ha⟩ := h.exists_asking hi
  obtain ⟨hgo, hback⟩ := Asking.round h ha hi
  refine ⟨i, ?_, ?_⟩
  · cases ha.striding.move hi with
    | going hnext => exact absurd hnext hlast
    | arrived harrives => exact harrives
    | stopped _ _ hterminal hnot =>
      have hover : (g.stage level (2 * i + 3)).current? = none := by
        rw [hback]
        exact Stage.current?_of_terminal hterminal
      have hcomplete := isComplete_of_over hover hc
      rw [hback, hnot] at hcomplete
      cases hcomplete
  · refine Nat.lt_of_not_le fun hle => ?_
    obtain ⟨n, hn⟩ := current_of_le hle hgo
    have hgoing := (Stage.current?_eq_some_iff.mp hn).1
    rw [World.isTerminal, hc] at hgoing
    cases hgoing

end Beeline

/-- The program succeeds exactly when the goal is straight ahead and within budget and ceiling. It
takes a step for each place, and visits the entry once, and two nodes for each place. -/
theorem beeline_run {entry ask go out : Node} (h : g.Beeline entry ask go out) (level : Level)
    (ceiling : Nat) :
    ((g.run level ceiling).outcome.success = true ↔
        ∃ d, level.GoalAhead d ∧ d ≤ max level.maxSteps.toNat 1 ∧ 2 * d + 1 ≤ ceiling) ∧
      ∀ d, level.GoalAhead d → d ≤ max level.maxSteps.toNat 1 → 2 * d + 1 ≤ ceiling →
        (g.run level ceiling).outcome.stepCount = d ∧
          (g.run level ceiling).executionSteps = 2 * d + 1 := by
  have harrival : ∀ d, level.GoalAhead d → d ≤ max level.maxSteps.toNat 1 → 2 * d + 1 ≤ ceiling →
      (g.stage level ceiling).world.isComplete = true ∧
        (g.stage level ceiling).world.stepCount = d ∧
        (g.trail level ceiling).length = 2 * d + 1 := by
    intro d hd hbudget hceiling
    obtain ⟨i, rfl⟩ := Nat.exists_eq_succ_of_ne_zero (Nat.pos_iff_ne_zero.mp hd.pos)
    exact h.stage_of_arrives (hd.arrives hbudget) hceiling
  rw [run_success, run_stepCount, (run_trace g level ceiling).1]
  constructor
  · constructor
    · intro hcomplete
      obtain ⟨i, hi, hle⟩ := h.exists_arrives hcomplete
      exact ⟨i + 1, hi.goalAhead, hi.underway.left, hle⟩
    · rintro ⟨d, hd, hbudget, hceiling⟩
      exact (harrival d hd hbudget hceiling).1
  · intro d hd hbudget hceiling
    exact (harrival d hd hbudget hceiling).2

/-- While not on the goal, move; drawn from the end to the start. -/
def homing : Graph where
  nodes := [{ id := "end", kind := .exit }, { id := "step", kind := .action (some (.known .move)) },
    { id := "away?", kind := .condition (.known .notAtGoal) }, { id := "start", kind := .entry }]
  edges := [⟨"4", "step", "away?", none⟩, ⟨"3", "away?", "end", some false⟩,
    ⟨"2", "away?", "step", some true⟩, ⟨"1", "start", "away?", none⟩]

theorem homing_beeline : homing.Beeline ⟨"start", .entry, ""⟩
    ⟨"away?", .condition (.known .notAtGoal), ""⟩ ⟨"step", .action (some (.known .move)), ""⟩
    ⟨"end", .exit, ""⟩ where
  nodes := by decide
  distinct := by decide
  entry_kind := rfl
  ask_kind := rfl
  go_kind := rfl
  out_kind := rfl
  edges := ⟨"1", "2", "3", "4", none, none, by decide⟩

def homestretch : Level := .plain "homestretch" (.ofRows ["S.G"]) ⟨0, 0⟩ .east ⟨.clamp 2, 0⟩ 2

theorem homestretch_goalAhead : homestretch.GoalAhead 2 where
  pos := by decide
  goal := ⟨by decide, by decide⟩
  clear := by
    intro i hi hi'
    obtain rfl | rfl : i = 1 ∨ i = 2 := by omega
    · exact ⟨⟨.clamp 1, 0⟩, ⟨by decide, by decide⟩, by decide⟩
    · exact ⟨⟨.clamp 2, 0⟩, ⟨by decide, by decide⟩, by decide⟩

theorem homing_on_homestretch :
    homing.Beeline ⟨"start", .entry, ""⟩ ⟨"away?", .condition (.known .notAtGoal), ""⟩
        ⟨"step", .action (some (.known .move)), ""⟩ ⟨"end", .exit, ""⟩ ∧
      homestretch.GoalAhead 2 ∧
      (homing.run homestretch 5).outcome.success = true ∧
      (homing.run homestretch 5).outcome.stepCount = 2 ∧
      (homing.run homestretch 5).executionSteps = 5 ∧
      (homing.run homestretch 4).outcome.success = false := by
  obtain ⟨hsuccess, hcount⟩ := beeline_run homing_beeline homestretch 5
  obtain ⟨hless, -⟩ := beeline_run homing_beeline homestretch 4
  obtain ⟨hsteps, hvisits⟩ := hcount 2 homestretch_goalAhead (by decide) (by decide)
  refine ⟨homing_beeline, homestretch_goalAhead,
    hsuccess.mpr ⟨2, homestretch_goalAhead, by decide, by decide⟩, hsteps, hvisits, ?_⟩
  rw [Bool.eq_false_iff]
  intro h
  obtain ⟨d, hd, -, hle⟩ := hless.mp h
  have hdistance := hd.goal.distance_unique homestretch_goalAhead.goal
  omega

end Graph
end Flowgraph
