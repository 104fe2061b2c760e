import Flowgraph.Proofs.Run.Stage
import Mathlib.Tactic.SplitIfs
/-!
# Moments

A run, visit by visit, with all that it keeps: the open loops, the count of visits and their ids.
The round of a loop is entered where the first edge of its node leads, whether the loop is opened,
walked again or closed. So the open loops steer nothing, and what a moment shows of the next node and
of the world is the stage of the same number.
-/
namespace Flowgraph

/-- A walk, and the node that it visits next, if any. -/
structure Moment where
  next : Option Node
  walk : Walk

def Moment.stage (m : Moment) : Stage := ⟨m.next, m.walk.world⟩

/-- One visit. A walk that is over stays as it is. -/
def Course.advance (c : Course) (m : Moment) : Moment :=
  match m.stage.current? with
  | none => m
  | some n => ⟨(c.visit n m.walk).1, (c.visit n m.walk).2⟩

namespace Graph
variable (g : Graph) (level : Level)

def course : Course := ⟨.ofGraph g, level⟩

def moment (visits : Nat) : Moment :=
  (g.course level).advance^[visits] ⟨g.entryNode?, { world := level.start }⟩

def visits (ceiling : Nat) : List Node :=
  (List.range ceiling).filterMap fun k => (g.moment level k).stage.current?

end Graph

namespace Course
variable {c : Course} {m : Moment} {n : Node}

theorem advance_of_over (h : m.stage.current? = none) : c.advance m = m := by
  simp only [advance, h]

theorem advance_of_current (h : m.stage.current? = some n) :
    c.advance m = ⟨(c.visit n m.walk).1, (c.visit n m.walk).2⟩ := by
  simp only [advance, h]

theorem proceed_eq (c : Course) (k : Nat) (m : Moment) :
    c.proceed k m.next m.walk = (c.advance^[k] m).walk := by
  induction k generalizing m with
  | zero => cases h : m.next <;> rfl
  | succ k ih =>
    obtain ⟨next, w⟩ := m
    rw [Function.iterate_succ_apply]
    cases next with
    | none =>
      have hf : c.advance ⟨none, w⟩ = ⟨none, w⟩ := advance_of_over (ite_self none)
      rw [hf, Function.iterate_fixed hf]
      rfl
    | some n =>
      by_cases ht : w.world.isTerminal = true
      · have hf : c.advance ⟨some n, w⟩ = ⟨some n, w⟩ := advance_of_over (if_pos ht)
        rw [hf, Function.iterate_fixed hf, proceed, if_pos ht]
      · have hs : c.advance ⟨some n, w⟩ = ⟨(c.visit n w).1, (c.visit n w).2⟩ :=
          advance_of_current (if_neg ht)
        rw [hs, ← ih, proceed, if_neg ht]

end Course

namespace Index
variable (g : Graph)

@[simp] theorem target?_ofGraph : (ofGraph g).target? = g.target? := by
  funext e
  simp [target?, Graph.target?]

@[simp] theorem next?_ofGraph (n : Node) : (ofGraph g).next? n = g.next? n := by
  simp [next?, Graph.next?]

@[simp] theorem branch?_ofGraph (n : Node) (b : Bool) :
    (ofGraph g).branch? n b = (g.branchEdge? n b).bind g.target? := by
  cases b <;> simp [branch?, Graph.branchEdge?, positional?]

end Index

namespace Graph
variable {g : Graph} {n : Node}

theorem node?_id_of_next? {b : Node} (h : g.next? n = some b) : g.node? b.id = some b := by
  obtain ⟨e, -, he⟩ := Option.bind_eq_some_iff.mp h
  rw [id_of_node? he]
  exact he

/-- Every open loop is walked again where the first edge of its node leads. -/
def Faithful (g : Graph) (s : Loops) : Prop :=
  ∀ f ∈ s.frames, ∀ n : Node, n.id = f.loop → g.node? f.body = g.next? n

theorem Faithful.push {s : Loops} (h : g.Faithful s) {b : Node} (hb : g.next? n = some b)
    (rounds round : Nat) : g.Faithful (s.push ⟨n.id, rounds, round, b.id⟩) := by
  intro f hf m hm
  rcases List.mem_append.mp hf with hf | hf
  · exact h f hf m hm
  · obtain rfl := List.mem_singleton.mp hf
    have hn : g.next? m = g.next? n := by
      simp only [next?, show m.id = n.id from hm]
    rw [hn, hb]
    exact node?_id_of_next? hb

theorem Faithful.remove {s : Loops} (h : g.Faithful s) (id : String) :
    g.Faithful (s.remove id) :=
  fun f hf => h f (List.mem_of_mem_eraseP hf)

theorem Faithful.setRound {s : Loops} (h : g.Faithful s) (id : String) (round : Nat) :
    g.Faithful (s.setRound id round) := by
  intro f hf m hm
  obtain ⟨i, hi⟩ := List.mem_iff_getElem?.mp hf
  simp only [Loops.setRound, List.getElem?_modify] at hi
  obtain ⟨f', hf', rfl⟩ := Option.map_eq_some_iff.mp hi
  have hb := h f' (List.mem_of_getElem? hf') m
  by_cases hi : s.frames.findIdx (·.loop == id) = i
  · simp only [hi, if_true] at hm ⊢
    exact hb hm
  · simp only [hi, if_false] at hm ⊢
    exact hb hm

/-- A visit to a loop node goes where its first edge leads, whatever loops are open. -/
theorem enterLoop_spec {s : Loops} (h : g.Faithful s) (level : Level) (n : Node) (rounds : Nat) :
    ((g.course level).enterLoop n rounds s).1 = g.next? n ∧
      g.Faithful ((g.course level).enterLoop n rounds s).2 := by
  unfold Course.enterLoop
  simp only [course, Index.next?_ofGraph, Index.node?_ofGraph]
  cases hb : g.next? n with
  | none => exact ⟨rfl, h⟩
  | some b =>
    cases hf : s.find? n.id with
    | none => exact ⟨rfl, h.push hb rounds 1⟩
    | some f =>
      have hid : n.id = f.loop := by
        have := List.find?_some hf
        simp at this
        exact this.symm
      simp only
      split_ifs
      · exact ⟨rfl, h.remove n.id⟩
      · exact ⟨(h f (List.mem_of_find?_eq_some hf) n hid).trans hb, h.setRound n.id _⟩

theorem visit_spec {w : Walk} (h : g.Faithful w.loops) (level : Level) (n : Node) :
    ((g.course level).visit n w).1 = g.follow? level n w.world ∧
      g.Faithful ((g.course level).visit n w).2.loops ∧
      ((g.course level).visit n w).2.world = n.work level w.world ∧
      ((g.course level).visit n w).2.steps = w.steps + 1 ∧
      ((g.course level).visit n w).2.visited = w.visited.push n.id := by
  obtain ⟨id, kind, label⟩ := n
  unfold Course.visit Course.dispatch follow? Node.work Node.action?
  cases kind with
  | entry => exact ⟨Index.next?_ofGraph .., h, rfl, rfl, rfl⟩
  | action a => cases a <;> exact ⟨Index.next?_ofGraph .., h, rfl, rfl, rfl⟩
  | condition p => exact ⟨Index.branch?_ofGraph .., h, rfl, rfl, rfl⟩
  | loop rounds =>
    obtain ⟨hn, hf⟩ := enterLoop_spec h level ⟨id, .loop rounds, label⟩ rounds.count
    exact ⟨hn, hf, rfl, rfl, rfl⟩
  | exit => exact ⟨rfl, h, rfl, rfl, rfl⟩

structure InStep (g : Graph) (level : Level) (k : Nat) : Prop where
  loops : g.Faithful (g.moment level k).walk.loops
  stage : (g.moment level k).stage = g.stage level k
  steps : (g.moment level k).walk.steps = (g.trail level k).length
  visited : (g.moment level k).walk.visited.toList = (g.trail level k).map (·.id)

theorem moment_succ (g : Graph) (level : Level) (k : Nat) :
    g.moment level (k + 1) = (g.course level).advance (g.moment level k) :=
  Function.iterate_succ_apply' ..

theorem in_step (g : Graph) (level : Level) (k : Nat) : InStep g level k := by
  -- the open loops are faithful before each visit; the stages follow from that
  induction k with
  | zero => exact ⟨fun _ hf => absurd hf List.not_mem_nil, rfl, rfl, rfl⟩
  | succ k ih =>
    obtain ⟨hl, hs, ht, hv⟩ := ih
    cases hc : (g.moment level k).stage.current? with
    | none =>
      have hm : g.moment level (k + 1) = g.moment level k := by
        rw [moment_succ, Course.advance_of_over hc]
      rw [hs] at hc
      have ho : g.trail level (k + 1) = g.trail level k := trail_of_over hc (Nat.le_succ k)
      exact ⟨hm ▸ hl, by rw [hm, hs, stage_succ, advance_of_over hc], by rw [hm, ho, ht],
        by rw [hm, ho, hv]⟩
    | some n =>
      obtain ⟨hn, hf, hw, hst, hvi⟩ := visit_spec hl level n
      have hm := (moment_succ g level k).trans (Course.advance_of_current hc)
      rw [hs] at hc
      have hworld : (g.moment level k).walk.world = (g.stage level k).world :=
        congrArg Stage.world hs
      refine ⟨by rw [hm]; exact hf, ?_, ?_, ?_⟩
      · rw [hm, stage_succ, advance_of_current hc, ← hworld]
        exact congrArg₂ Stage.mk hn hw
      · rw [hm, hst, trail_succ, hc, ht]
        simp
      · rw [hm, hvi, trail_succ, hc]
        simp [hv]

theorem moment_stage (g : Graph) (level : Level) (k : Nat) :
    (g.moment level k).stage = g.stage level k := (in_step g level k).stage

theorem moment_world (g : Graph) (level : Level) (k : Nat) :
    (g.moment level k).walk.world = (g.stage level k).world :=
  congrArg Stage.world (moment_stage g level k)

theorem visits_eq_trail (g : Graph) (level : Level) (ceiling : Nat) :
    g.visits level ceiling = g.trail level ceiling := by
  simp only [visits, trail, moment_stage]

/-- A run keeps no count of rounds that its report would show. -/
theorem run_eq_stagedRun (g : Graph) (level : Level) (ceiling : Nat) :
    g.run level ceiling = g.stagedRun level ceiling := by
  obtain ⟨-, -, ht, hv⟩ := in_step g level ceiling
  unfold run stagedRun
  simp only [Index.entryNode?_ofGraph]
  cases he : g.entryNode? with
  | none => rfl
  | some entry =>
    have hp := (g.course level).proceed_eq ceiling ⟨some entry, { world := level.start }⟩
    have hm : (g.course level).advance^[ceiling] ⟨some entry, { world := level.start }⟩ =
        g.moment level ceiling := by rw [moment, he]
    rw [hm] at hp
    simp only [course] at hp
    simp only [hp, Walk.callOff, finalWorld, ht]
    split_ifs with hc
    · simp only [moment_world, hv]
    · simp only [moment_world, ht, hv]

theorem run_of_entry {entry : Node} (he : g.entryNode? = some entry) (level : Level)
    (ceiling : Nat) :
    g.run level ceiling =
      ⟨(g.finalWorld level ceiling).outcome level, (g.trail level ceiling).length,
        (g.trail level ceiling).map (·.id)⟩ := by
  rw [run_eq_stagedRun, stagedRun, he]

theorem run_of_no_entry (he : g.entryNode? = none) (level : Level) (ceiling : Nat) :
    g.run level ceiling = ⟨⟨false, 0, Message.noEntry, some level.start⟩, 0, []⟩ := by
  rw [run_eq_stagedRun, stagedRun, he]

theorem outcome_failureReason (w : World) (level : Level) :
    (w.outcome level).failureReason = w.failureReason := rfl

theorem over_of_no_entry (he : g.entryNode? = none) (level : Level) (k : Nat) :
    (g.stage level k).current? = none := by
  have ho : (g.stage level 0).current? = none := Stage.current?_eq_none_iff.mpr (Or.inr he)
  rwa [stage_of_over ho (Nat.zero_le k)]

theorem trail_of_no_entry (he : g.entryNode? = none) (level : Level) (k : Nat) :
    g.trail level k = [] :=
  trail_of_over (over_of_no_entry he level 0) (Nat.zero_le k)

theorem run_trace (g : Graph) (level : Level) (ceiling : Nat) :
    (g.run level ceiling).executionSteps = (g.trail level ceiling).length ∧
      (g.run level ceiling).visited = (g.trail level ceiling).map (·.id) := by
  cases he : g.entryNode? with
  | none =>
    rw [run_of_no_entry he, trail_of_no_entry he]
    exact ⟨rfl, rfl⟩
  | some entry =>
    rw [run_of_entry he]
    exact ⟨rfl, rfl⟩

theorem head?_visited (g : Graph) (level : Level) {ceiling : Nat} (hc : 1 ≤ ceiling) :
    (g.run level ceiling).visited.head? = g.entryNode?.map (·.id) := by
  rw [(run_trace g level ceiling).2, List.head?_map]
  congr 1
  cases he : g.entryNode? with
  | none => rw [trail_of_no_entry he]; rfl
  | some entry =>
    have h0 : (g.stage level 0).current? = some entry :=
      Stage.current?_eq_some_iff.mpr ⟨rfl, he⟩
    rw [List.head?_eq_getElem?, getElem?_trail (lt_length_trail h0 hc), h0]

theorem run_congr {g g' : Graph} {level : Level} (he : g'.entryNode? = g.entryNode?)
    (hs : ∀ k, g'.stage level k = g.stage level k) (ceiling : Nat) :
    g'.run level ceiling = g.run level ceiling := by
  have ht : g'.trail level ceiling = g.trail level ceiling := by simp only [trail, hs]
  rw [run_eq_stagedRun, run_eq_stagedRun, stagedRun, stagedRun, he, ht, finalWorld, finalWorld, ht,
    hs]

end Graph
end Flowgraph
