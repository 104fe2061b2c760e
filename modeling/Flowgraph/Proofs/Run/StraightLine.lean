import Flowgraph.Proofs.Run.Ending
import Mathlib.Data.Nat.Find
/-!
# Straight-line programs

An entry, a row of actions and an exit. Such a program does its actions one after the other and stops
at the first verdict. It needs a visit for the entry and one for each action, and the visit to the
exit must not be the last that the ceiling allows: a run that spends all its visits without a verdict
is called off, wherever it stands.
-/
namespace Flowgraph

theorem World.Sound.foldl_act {w : World} (h : w.Sound) (level : Level) (actions : List ActionKey) :
    (actions.foldl (fun w a => w.act level a) w).Sound := by
  induction actions generalizing w with
  | nil => exact h
  | cons a actions ih => exact ih (h.act level a)

namespace Level

/-- The world after the first so many of some actions. -/
def after (level : Level) (actions : List ActionKey) (i : Nat) : World :=
  (actions.take i).foldl (fun w a => w.act level a) level.start

/-- The verdict comes with this action, counted from one, and not before. -/
structure DecidedAt (level : Level) (actions : List ActionKey) (j : Nat) : Prop where
  le : j ≤ actions.length
  terminal : (level.after actions j).isTerminal = true
  first : ∀ i < j, (level.after actions i).isTerminal = false

/-- None of the actions brings a verdict. -/
def Undecided (level : Level) (actions : List ActionKey) : Prop :=
  ∀ i ≤ actions.length, (level.after actions i).isTerminal = false

variable {level : Level} {actions : List ActionKey} {a : ActionKey} {i j : Nat}

theorem after_succ (ha : actions[i]? = some a) :
    level.after actions (i + 1) = (level.after actions i).act level a := by
  rw [after, after, List.take_add_one, ha, Option.toList_some, List.foldl_append]
  rfl

theorem after_of_length_le (hi : actions.length ≤ i) :
    level.after actions i = level.after actions actions.length := by
  rw [after, after, List.take_of_length_le hi, List.take_length]

theorem exists_decidedAt (ht : (level.after actions i).isTerminal = true) :
    ∃ j ≤ i, level.DecidedAt actions j := by
  have hex : ∃ j, (level.after actions j).isTerminal = true := ⟨i, ht⟩
  have hfirst : ∀ k < Nat.find hex, (level.after actions k).isTerminal = false := by
    intro k hk
    exact Bool.eq_false_iff.mpr (Nat.find_min hex hk)
  refine ⟨Nat.find hex, Nat.find_min' hex ht, ?_, Nat.find_spec hex, hfirst⟩
  -- Behind the last action nothing changes, so no verdict comes first there.
  refine Nat.le_of_not_lt fun hlt => ?_
  have hlast := Nat.find_spec hex
  rw [after_of_length_le (Nat.le_of_lt hlt), hfirst _ hlt] at hlast
  cases hlast

theorem going_of_late {visits : Nat} (late : ¬∃ j, level.DecidedAt actions j ∧ j + 1 ≤ visits)
    (hi : i + 1 ≤ visits) : (level.after actions i).isTerminal = false := by
  refine Bool.eq_false_iff.mpr fun ht => ?_
  obtain ⟨j, hj, hd⟩ := exists_decidedAt ht
  exact late ⟨j, hd, by omega⟩

theorem Undecided.going (h : level.Undecided actions) (i : Nat) :
    (level.after actions i).isTerminal = false := by
  rcases Nat.le_total i actions.length with hi | hi
  · exact h i hi
  · rw [after_of_length_le hi]
    exact h _ (Nat.le_refl _)

theorem decided_or_undecided (level : Level) (actions : List ActionKey) :
    (∃ j, level.DecidedAt actions j) ∨ level.Undecided actions := by
  by_cases h : ∃ i, (level.after actions i).isTerminal = true
  · obtain ⟨i, ht⟩ := h
    obtain ⟨j, -, hd⟩ := exists_decidedAt ht
    exact .inl ⟨j, hd⟩
  · exact .inr fun i _ => Bool.eq_false_iff.mpr fun ht => h ⟨i, ht⟩

theorem after_sound (level : Level) (actions : List ActionKey) (i : Nat) :
    (level.after actions i).Sound :=
  (World.start_sound level).foldl_act level _

end Level

namespace Outcome

/-- The program came to its end without a verdict. -/
structure DidNotFinish (o : Outcome) : Prop where
  success : o.success = false
  reason : o.failureReason = none
  message : o.message = Message.didNotFinish

/-- The run spent its visits without a verdict. -/
structure RanAway (o : Outcome) (level : Level) : Prop where
  success : o.success = false
  reason : o.failureReason = some .infiniteLoop
  message : o.message = Message.failure .infiniteLoop o.stepCount level

end Outcome

namespace World
variable {w : World}

theorem Sound.didNotFinish (h : w.Sound) (ht : w.isTerminal = false) (level : Level) :
    (w.outcome level).DidNotFinish where
  success := (isTerminal_eq_false_iff.mp ht).1
  reason := failureReason_of_open h ht
  message := message_of_open h ht

theorem Sound.ranAway (h : w.Sound) (ht : w.isTerminal = false) (level : Level) :
    ((w.markFailed .infiniteLoop).outcome level).RanAway level where
  success := (markFailed_isComplete w _).trans (isTerminal_eq_false_iff.mp ht).1
  reason := by rw [markFailed_of_open ht]; rfl
  message := message_of_failure (h.markFailed _) (by rw [markFailed_of_open ht])

end World

/-- The program of some actions, with its nodes in a row from the entry to the exit. Nodes and edges
were drawn in any order, and it does not matter what the edges are called or marked for. -/
structure Graph.StraightLine (g : Graph) (row : List Node) (actions : List ActionKey) : Prop where
  nodes : g.nodes.Perm row
  distinct : (row.map (·.id)).Nodup
  kinds : row.map (·.kind) = .entry :: (actions.map (fun a => .action (some a)) ++ [.exit])
  edges : (g.edges.map fun e => (e.source, e.target)).Perm
    ((row.map (·.id)).zip (row.map (·.id)).tail)

namespace Graph
namespace StraightLine
variable {g : Graph} {level : Level} {row : List Node} {actions : List ActionKey} {n m : Node}
  {w : World} {k : Nat}

theorem length (h : g.StraightLine row actions) : row.length = actions.length + 2 := by
  have hlength := congrArg List.length h.kinds
  simpa using hlength

theorem kind_cases (h : g.StraightLine row actions) (hk : row[k]? = some n) :
    (k = 0 ∧ n.kind = .entry) ∨
      (∃ i a, k = i + 1 ∧ actions[i]? = some a ∧ n.kind = .action (some a)) ∨
      (k = actions.length + 1 ∧ n.kind = .exit) := by
  have hkind : (row.map (·.kind))[k]? = some n.kind := by rw [List.getElem?_map, hk]; rfl
  rw [h.kinds] at hkind
  cases k with
  | zero => exact .inl ⟨rfl, (Option.some.inj hkind).symm⟩
  | succ i =>
    rw [List.getElem?_cons_succ] at hkind
    by_cases hi : i < actions.length
    · rw [List.getElem?_append_left (by simpa using hi), List.getElem?_map] at hkind
      obtain ⟨a, ha, hkind⟩ := Option.map_eq_some_iff.mp hkind
      exact .inr (.inl ⟨i, a, rfl, ha, hkind.symm⟩)
    · rw [List.getElem?_append_right (by simpa using hi), List.getElem?_singleton] at hkind
      split at hkind
      next hlast =>
        rw [List.length_map] at hlast
        exact .inr (.inr ⟨by omega, (Option.some.inj hkind).symm⟩)
      next => cases hkind

theorem node?_eq (h : g.StraightLine row actions) (hn : n ∈ row) : g.node? n.id = some n := by
  have hd : (g.nodes.map Node.id).Nodup := (h.nodes.map Node.id).nodup_iff.mpr h.distinct
  exact node?_of_mem hd (h.nodes.mem_iff.mpr hn)

theorem entryNode?_eq (h : g.StraightLine row actions) : g.entryNode? = row[0]? := by
  have hpos : 0 < row.length := by rw [h.length]; exact Nat.succ_pos _
  have hfirst : row[0]? = some row[0] := List.getElem?_eq_getElem hpos
  rw [hfirst]
  refine entryNode?_of_only (h.nodes.mem_iff.mpr (List.getElem_mem hpos)) ?_ ?_
  · rcases h.kind_cases hfirst with ⟨-, hkind⟩ | ⟨i, -, hi, -⟩ | ⟨hlast, -⟩
    · rw [Node.tag, hkind, Kind.tag]
    · cases hi
    · cases hlast
  · intro m hm htag
    obtain ⟨k, hk⟩ := List.mem_iff_getElem?.mp (h.nodes.mem_iff.mp hm)
    rcases h.kind_cases hk with ⟨rfl, -⟩ | ⟨i, a, -, -, hkind⟩ | ⟨-, hkind⟩
    · exact Option.some.inj (hk.symm.trans hfirst)
    · rw [Node.tag, hkind] at htag
      cases htag
    · rw [Node.tag, hkind] at htag
      cases htag

theorem exists_edge_iff (h : g.StraightLine row actions) {s t : String} :
    (∃ e ∈ g.edges, e.source = s ∧ e.target = t) ↔
      ∃ k : Nat, (row.map (·.id))[k]? = some s ∧ (row.map (·.id))[k + 1]? = some t := by
  have hpair : (∃ e ∈ g.edges, e.source = s ∧ e.target = t) ↔
      (s, t) ∈ g.edges.map fun e => (e.source, e.target) := by simp
  rw [hpair, h.edges.mem_iff, List.mem_iff_getElem?]
  simp only [List.getElem?_zip_eq_some, List.getElem?_tail]

theorem next?_eq (h : g.StraightLine row actions) (hn : row[k]? = some n)
    (hm : row[k + 1]? = some m) : g.next? n = some m := by
  have hnid : (row.map (·.id))[k]? = some n.id := by rw [List.getElem?_map, hn]; rfl
  have hmid : (row.map (·.id))[k + 1]? = some m.id := by rw [List.getElem?_map, hm]; rfl
  refine next?_of_targets (h.node?_eq (List.mem_of_getElem? hm)) ?_ ?_
  · obtain ⟨e, he, hsource, -⟩ := h.exists_edge_iff.mpr ⟨k, hnid, hmid⟩
    exact ⟨e, he, hsource⟩
  · intro e he hsource
    obtain ⟨i, hi, htarget⟩ := h.exists_edge_iff.mp ⟨e, he, hsource, rfl⟩
    have hlt : i < (row.map (·.id)).length := (List.getElem?_eq_some_iff.mp hi).1
    obtain rfl : i = k := (List.getElem?_inj hlt h.distinct).mp (hi.trans hnid.symm)
    exact Option.some.inj (htarget.symm.trans hmid)

theorem follow?_eq (h : g.StraightLine row actions) (hn : row[k]? = some n) :
    g.follow? level n w = row[k + 1]? := by
  have hlength := h.length
  by_cases hk : k + 1 < row.length
  · have hnext := h.next?_eq hn (List.getElem?_eq_getElem hk)
    rw [List.getElem?_eq_getElem hk]
    rcases h.kind_cases hn with ⟨-, hkind⟩ | ⟨i, a, -, -, hkind⟩ | ⟨hlast, -⟩
    · simp only [follow?, hkind, hnext]
    · simp only [follow?, hkind, hnext]
    · omega
  · rw [List.getElem?_eq_none (Nat.le_of_not_lt hk)]
    rcases h.kind_cases hn with ⟨hfirst, -⟩ | ⟨i, a, hi, ha, -⟩ | ⟨-, hkind⟩
    · omega
    · have := (List.getElem?_eq_some_iff.mp ha).1
      omega
    · simp only [follow?, hkind]

/-- Before the node at a place, one action less was done than there are nodes before it. -/
theorem work_eq (h : g.StraightLine row actions) (hn : row[k]? = some n) :
    n.work level (level.after actions (k - 1)) = level.after actions k := by
  rcases h.kind_cases hn with ⟨rfl, hkind⟩ | ⟨i, a, rfl, ha, hkind⟩ | ⟨rfl, hkind⟩
  · exact Node.work_of_no_action (by rw [Node.action?, hkind])
  · rw [Level.after_succ ha]
    exact Node.work_of_action (by rw [Node.action?, hkind])
  · rw [Level.after_of_length_le (Nat.le_succ _)]
    exact Node.work_of_no_action (by rw [Node.action?, hkind])

theorem advance_eq (h : g.StraightLine row actions)
    (going : (level.after actions (k - 1)).isTerminal = false) :
    g.advance level ⟨row[k]?, level.after actions (k - 1)⟩ =
      ⟨row[k + 1]?, level.after actions k⟩ := by
  cases hn : row[k]? with
  | some n =>
    rw [advance_of_current (Stage.current?_eq_some_iff.mpr ⟨going, rfl⟩), h.follow?_eq hn,
      h.work_eq hn]
  | none =>
    have hk := List.getElem?_eq_none_iff.mp hn
    have hlength := h.length
    rw [advance_of_over (Stage.current?_eq_none_iff.mpr (.inr rfl)),
      List.getElem?_eq_none (Nat.le_succ_of_le hk), Level.after_of_length_le (by omega),
      Level.after_of_length_le (i := k) (by omega)]

/-- While there is no verdict, so many visits go to as many nodes of the row. -/
theorem staged (h : g.StraightLine row actions) (level : Level)
    (going : ∀ i, i + 1 < k → (level.after actions i).isTerminal = false) :
    g.stage level k = ⟨row[k]?, level.after actions (k - 1)⟩ ∧ g.trail level k = row.take k := by
  induction k with
  | zero => exact ⟨congrArg (Stage.mk · _) h.entryNode?_eq, rfl⟩
  | succ k ih =>
    obtain ⟨hstage, htrail⟩ := ih fun i hi => going i (Nat.lt_succ_of_lt hi)
    have hgoing : (level.after actions (k - 1)).isTerminal = false := by
      cases k with
      | zero => rfl
      | succ i => exact going i (Nat.lt_succ_self _)
    constructor
    · rw [stage_succ, hstage, h.advance_eq hgoing, Nat.add_sub_cancel]
    · have hcurrent : (g.stage level k).current? = row[k]? := by
        rw [hstage, Stage.current?, hgoing]
        rfl
      rw [trail_succ, htrail, hcurrent, List.take_add_one]

theorem run_eq (h : g.StraightLine row actions) (ceiling : Nat) :
    g.run level ceiling =
      ⟨(g.finalWorld level ceiling).outcome level, (g.trail level ceiling).length,
        (g.trail level ceiling).map (·.id)⟩ := by
  have hpos : 0 < row.length := by rw [h.length]; exact Nat.succ_pos _
  exact run_of_entry (h.entryNode?_eq.trans (List.getElem?_eq_getElem hpos)) level ceiling

theorem run_of_decided (h : g.StraightLine row actions) {j : Nat} (hj : level.DecidedAt actions j)
    {ceiling : Nat} (hc : j + 1 ≤ ceiling) :
    g.run level ceiling =
      ⟨(level.after actions j).outcome level, j + 1, (row.take (j + 1)).map (·.id)⟩ := by
  obtain ⟨hstage, htrail⟩ := h.staged level (k := j + 1)
    fun i hi => hj.first i (Nat.lt_of_succ_lt_succ hi)
  have hover : (g.stage level (j + 1)).current? = none := by
    rw [hstage]
    exact Stage.current?_of_terminal hj.terminal
  have hworld : (g.stage level ceiling).world = level.after actions j := by
    rw [stage_of_over hover hc, hstage, Nat.add_sub_cancel]
  have hlength : (row.take (j + 1)).length = j + 1 := by
    have := h.length
    have := hj.le
    rw [List.length_take]
    omega
  rw [h.run_eq, finalWorld_of_terminal (by rw [hworld]; exact hj.terminal), hworld,
    trail_of_over hover hc, htrail, hlength]

theorem run_of_undecided (h : g.StraightLine row actions) (hu : level.Undecided actions)
    {ceiling : Nat} (hc : actions.length + 3 ≤ ceiling) :
    g.run level ceiling =
      ⟨(level.after actions actions.length).outcome level, actions.length + 2,
        row.map (·.id)⟩ := by
  obtain ⟨hstage, htrail⟩ := h.staged level (k := ceiling) fun i _ => hu.going i
  have hlength := h.length
  rw [List.take_of_length_le (by omega)] at htrail
  have hfinal : g.finalWorld level ceiling = level.after actions actions.length := by
    rw [finalWorld, htrail, if_neg (by omega), hstage, Level.after_of_length_le (by omega)]
  rw [h.run_eq, hfinal, htrail, hlength]

theorem run_of_late (h : g.StraightLine row actions) {ceiling : Nat}
    (late : ¬∃ j, level.DecidedAt actions j ∧ j + 1 ≤ ceiling)
    (hc : ceiling ≤ actions.length + 2) :
    g.run level ceiling =
      ⟨((level.after actions (ceiling - 1)).markFailed .infiniteLoop).outcome level, ceiling,
        (row.take ceiling).map (·.id)⟩ := by
  obtain ⟨hstage, htrail⟩ := h.staged level (k := ceiling)
    fun i hi => Level.going_of_late late (Nat.le_of_lt hi)
  have hlength : (row.take ceiling).length = ceiling := by
    have := h.length
    rw [List.length_take]
    omega
  have hfinal : g.finalWorld level ceiling =
      (level.after actions (ceiling - 1)).markFailed .infiniteLoop := by
    rw [finalWorld, htrail, hlength, if_pos (Nat.le_refl _), hstage]
  rw [h.run_eq, hfinal, htrail, hlength]

end StraightLine

/-- A straight-line program does its actions up to the first verdict. If that comes within the
ceiling, it is the verdict of the run. Without one the run comes to the end of the program when the
ceiling leaves a visit unused, and else it runs away, be it that all nodes were visited. -/
theorem straight_line_run {g : Graph} {row : List Node} {actions : List ActionKey}
    (h : g.StraightLine row actions) (level : Level) (ceiling : Nat) :
    (∀ j, level.DecidedAt actions j → j + 1 ≤ ceiling →
        g.run level ceiling =
          ⟨(level.after actions j).outcome level, j + 1, (row.take (j + 1)).map (·.id)⟩) ∧
      (level.Undecided actions → actions.length + 3 ≤ ceiling →
        g.run level ceiling =
            ⟨(level.after actions actions.length).outcome level, actions.length + 2,
              row.map (·.id)⟩ ∧
          (g.run level ceiling).outcome.DidNotFinish) ∧
      ((¬∃ j, level.DecidedAt actions j ∧ j + 1 ≤ ceiling) →
        ¬(level.Undecided actions ∧ actions.length + 3 ≤ ceiling) →
        g.run level ceiling =
            ⟨((level.after actions (ceiling - 1)).markFailed .infiniteLoop).outcome level, ceiling,
              (row.take ceiling).map (·.id)⟩ ∧
          (g.run level ceiling).outcome.RanAway level) ∧
      (level.Undecided actions → ceiling = actions.length + 2 →
        (g.run level ceiling).executionSteps = ceiling ∧
          (g.run level ceiling).visited = row.map (·.id) ∧
          (g.run level ceiling).outcome.RanAway level) := by
  have called_off (late : ¬∃ j, level.DecidedAt actions j ∧ j + 1 ≤ ceiling)
      (hc : ceiling ≤ actions.length + 2) : (g.run level ceiling).outcome.RanAway level := by
    have hgoing : (level.after actions (ceiling - 1)).isTerminal = false := by
      cases ceiling with
      | zero => rfl
      | succ c => exact Level.going_of_late late (Nat.le_refl _)
    rw [h.run_of_late late hc]
    exact (Level.after_sound level actions _).ranAway hgoing level
  refine ⟨fun j hj hc => h.run_of_decided hj hc, ?finished, ?late, ?exhausted⟩
  case finished =>
    intro hu hc
    have hrun := h.run_of_undecided hu hc
    refine ⟨hrun, ?_⟩
    rw [hrun]
    exact (Level.after_sound level actions _).didNotFinish (hu _ (Nat.le_refl _)) level
  case late =>
    intro late unfinished
    have hc : ceiling ≤ actions.length + 2 := by
      rcases Level.decided_or_undecided level actions with ⟨j, hj⟩ | hu
      · have hlate : ceiling < j + 1 := Nat.lt_of_not_le fun hle => late ⟨j, hj, hle⟩
        have := hj.le
        omega
      · exact Nat.le_of_lt_succ (Nat.lt_of_not_le fun hle => unfinished ⟨hu, hle⟩)
    exact ⟨h.run_of_late late hc, called_off late hc⟩
  case exhausted =>
    intro hu hc
    have late : ¬∃ j, level.DecidedAt actions j ∧ j + 1 ≤ ceiling := by
      rintro ⟨j, hj, -⟩
      have hterminal := hj.terminal
      rw [hu j hj.le] at hterminal
      cases hterminal
    have hrun := h.run_of_late late (Nat.le_of_eq hc)
    refine ⟨by rw [hrun], ?_, called_off late (Nat.le_of_eq hc)⟩
    rw [hrun, hc, List.take_of_length_le (Nat.le_of_eq h.length)]

def outing : Graph where
  nodes := [{ id := "go", kind := .action (some (.known .move)) }, { id := "out", kind := .exit },
    { id := "in", kind := .entry }, { id := "jump", kind := .action (some (.ofWord "jump")) }]
  edges := [⟨"2", "jump", "go", none⟩, ⟨"3", "go", "out", some true⟩, ⟨"1", "in", "jump", none⟩]

def outingRow : List Node :=
  [{ id := "in", kind := .entry }, { id := "jump", kind := .action (some (.ofWord "jump")) },
    { id := "go", kind := .action (some (.known .move)) }, { id := "out", kind := .exit }]

theorem outing_straightLine : outing.StraightLine outingRow [.ofWord "jump", .known .move] where
  nodes := by decide
  distinct := by decide
  kinds := rfl
  edges := by decide

def doorstep : Level := .plain "doorstep" (.ofRows ["SG"]) ⟨0, 0⟩ .east ⟨.clamp 1, 0⟩ 5

def driveway : Level := .plain "driveway" (.ofRows ["S.G"]) ⟨0, 0⟩ .east ⟨.clamp 2, 0⟩ 5

theorem doorstep_decided : doorstep.DecidedAt [.ofWord "jump", .known .move] 2 where
  le := by decide
  terminal := by decide
  first := by decide

theorem driveway_undecided : driveway.Undecided [.ofWord "jump", .known .move] := by
  unfold Level.Undecided
  decide

/-- With the verdict on the last visit that is allowed the run succeeds, and with the exit on it the
run is called off. -/
theorem outing_run :
    outing.StraightLine outingRow [.ofWord "jump", .known .move] ∧
      (doorstep.DecidedAt [.ofWord "jump", .known .move] 2 ∧
        (outing.run doorstep 3).outcome.success = true ∧
        (outing.run doorstep 3).visited = ["in", "jump", "go"] ∧
        (outing.run doorstep 2).outcome.RanAway doorstep) ∧
      (driveway.Undecided [.ofWord "jump", .known .move] ∧
        (outing.run driveway 5).outcome.DidNotFinish ∧
        (outing.run driveway 5).visited = ["in", "jump", "go", "out"] ∧
        (outing.run driveway 4).outcome.RanAway driveway ∧
        (outing.run driveway 4).visited = ["in", "jump", "go", "out"]) := by
  obtain ⟨decided, -, -, -⟩ := straight_line_run outing_straightLine doorstep 3
  obtain ⟨-, -, late, -⟩ := straight_line_run outing_straightLine doorstep 2
  obtain ⟨-, finished, -, -⟩ := straight_line_run outing_straightLine driveway 5
  obtain ⟨-, -, -, exhausted⟩ := straight_line_run outing_straightLine driveway 4
  have hdecided := decided 2 doorstep_decided (by decide)
  obtain ⟨hfinished, unfinished⟩ := finished driveway_undecided (by decide)
  obtain ⟨-, hvisited, ranAway⟩ := exhausted driveway_undecided rfl
  refine ⟨outing_straightLine, ⟨doorstep_decided, ?_, ?_, ?_⟩, driveway_undecided, unfinished, ?_,
    ranAway, hvisited⟩
  · rw [hdecided]
    decide
  · rw [hdecided]
    rfl
  · refine (late ?_ fun h => absurd h.2 (by decide)).2
    rintro ⟨j, hj, hle⟩
    obtain rfl | rfl : j = 0 ∨ j = 1 := by omega
    · exact absurd hj.terminal (by decide)
    · exact absurd hj.terminal (by decide)
  · rw [hfinished]
    rfl

end Graph
end Flowgraph
