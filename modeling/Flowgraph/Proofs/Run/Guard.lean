import Flowgraph.Proofs.Run.Ending
import Flowgraph.Proofs.Run.Marks
/-!
# Guarded moves

A move is guarded by a condition that asks whether the way is clear and leads to the move on that
side only. The other side has to be marked too: an outcome that no edge is marked for takes some edge
all the same. The world is as the condition found it when the move is made, so a run whose moves are
all guarded is never blocked.
-/
namespace Flowgraph

/-- The side on which a condition tells that the way is clear, if it asks about the way. -/
def Node.clearSide? (n : Node) : Option Bool :=
  match n.kind with
  | .condition (.known .canMove) => some true
  | .condition (.known .wallAhead) => some false
  | _ => none

theorem Node.isOpen_of_clearSide? {n : Node} {side : Bool} (h : n.clearSide? = some side) :
    ∃ q, n.kind = .condition (.known q) ∧ ∀ (level : Level) (w : World),
      w.answer level q = side → w.grid.isOpen w.ahead = true := by
  unfold clearSide? at h
  split at h
  · next hk =>
    cases h
    exact ⟨.canMove, hk, fun _ _ ha => ha⟩
  · next hk =>
    cases h
    exact ⟨.wallAhead, hk, fun _ _ ha => by simpa [World.answer] using ha⟩
  · cases h

namespace Graph
variable {g : Graph} {level : Level} {n m : Node} {e : Edge} {k : Nat}

/-- The edge leaves a condition that asks about the way, on the side where the way is clear, and an
edge is marked for the other side. -/
def Guards (g : Graph) (e : Edge) : Prop :=
  ∃ c ∈ g.nodes, c.id = e.source ∧ ∃ side, c.clearSide? = some side ∧ e.branch = some side ∧
    ∃ e' ∈ g.outgoing c.id, e'.branch = some !side

/-- Every edge that leads to a move guards it. -/
def GuardsMoves (g : Graph) : Prop :=
  ∀ e ∈ g.edges, ∀ m ∈ g.nodes, m.id = e.target → m.action? = some (.known .move) → g.Guards e

instance (g : Graph) (e : Edge) : Decidable (g.Guards e) :=
  inferInstanceAs (Decidable (∃ c ∈ g.nodes, c.id = e.source ∧ ∃ side,
    c.clearSide? = some side ∧ e.branch = some side ∧
    ∃ e' ∈ g.outgoing c.id, e'.branch = some !side))

instance (g : Graph) : Decidable g.GuardsMoves :=
  inferInstanceAs (Decidable (∀ e ∈ g.edges, ∀ m ∈ g.nodes, m.id = e.target →
    m.action? = some (.known .move) → g.Guards e))

theorem clear_of_guards (hd : (g.nodes.map (·.id)).Nodup) (hn : n ∈ g.nodes) {w : World}
    (he : g.leave? level n w = some e) (hg : g.Guards e) :
    (n.work level w).grid.isOpen (n.work level w).ahead = true := by
  obtain ⟨c, hc, hid, side, hclear, hside, hother⟩ := hg
  obtain ⟨q, hkind, hopen⟩ := Node.isOpen_of_clearSide? hclear
  have hsource : e.source = n.id := by simpa using (List.mem_filter.mp (mem_of_leave? he)).2
  obtain rfl : c = n := eq_of_id hd hc hn (hid.trans hsource)
  have hw : c.work level w = w := Node.work_of_no_action (by simp only [Node.action?, hkind])
  have hedge : g.branchEdge? c (w.answer level q) = some e := by
    simpa only [leave?, hkind, World.ask] using he
  rw [hw]
  by_cases hanswer : w.answer level q = side
  · exact hopen level w hanswer
  · -- the outcome is the other side, which has an edge of its own
    have hflip : w.answer level q = !side := Bool.eq_not.mpr hanswer
    obtain ⟨e', he', hb'⟩ := branchEdge?_of_marked hother
    rw [hflip, he', Option.some.injEq] at hedge
    rw [hedge, hside] at hb'
    simp at hb'

theorem not_blocked (hd : (g.nodes.map (·.id)).Nodup) (hg : g.GuardsMoves) {a : ActionKey}
    (h : (g.stage level k).current? = some m) (ha : m.action? = some a) :
    (g.stage level k).world.blocked? a = none := by
  rw [World.blocked?_eq_none_iff]
  rintro rfl
  rcases first_or_followed h with ⟨-, hentry⟩ | ⟨j, n, rfl, hn, hf, hw⟩
  · have htag := (mem_of_entryNode? hentry).2
    rw [Node.action?_eq_none (by rw [htag]; decide)] at ha
    cases ha
  · obtain ⟨e, hedge, he, ht⟩ := exists_edge_of_follow? hf
    rw [hw]
    exact clear_of_guards hd (mem_of_current hn) he
      (hg e hedge m (mem_of_node? ht) (id_of_node? ht) ha)

theorem failureReason_of_guardsMoves (hd : (g.nodes.map (·.id)).Nodup) (hg : g.GuardsMoves)
    {r : FailureReason} (h : (g.stage level k).world.failureReason = some r) : r = .maxSteps := by
  induction k with
  | zero => cases h
  | succ k ih =>
    rw [stage_succ] at h
    cases hc : (g.stage level k).current? with
    | none =>
      rw [advance_of_over hc] at h
      exact ih h
    | some m =>
      rw [advance_of_current hc] at h
      cases ha : m.action? with
      | none =>
        rw [Node.work_of_no_action ha] at h
        exact ih h
      | some a =>
        rw [Node.work_of_action ha] at h
        exact (stage_sound g level k).failureReason_act (Stage.current?_eq_some_iff.mp hc).1
          (not_blocked hd hg hc ha) h

/-- In a graph with distinct ids whose moves are all guarded, no run on any level walks into a wall or
off the grid. -/
theorem guarded_never_blocked (hd : (g.nodes.map (·.id)).Nodup) (hg : g.GuardsMoves)
    (level : Level) (ceiling : Nat) :
    (g.run level ceiling).outcome.failureReason ≠ some .collision ∧
      (g.run level ceiling).outcome.failureReason ≠ some .outOfBounds := by
  have hreason : ∀ r, (g.run level ceiling).outcome.failureReason = some r →
      r = .maxSteps ∨ r = .infiniteLoop := by
    intro r hr
    exact (run_failureReason hr).imp_left (failureReason_of_guardsMoves hd hg)
  constructor
  · intro h
    rcases hreason _ h with hr | hr <;> cases hr
  · intro h
    rcases hreason _ h with hr | hr <;> cases hr

def cautious : Graph where
  nodes := [{ id := "in", kind := .entry },
    { id := "free", kind := .condition (.known .canMove) },
    { id := "walled", kind := .condition (.known .wallAhead) },
    { id := "go", kind := .action (some (.known .move)) },
    { id := "turn", kind := .action (some (.known .turnLeft)) }]
  edges := [⟨"1", "in", "free", none⟩, ⟨"2", "free", "walled", some false⟩,
    ⟨"3", "free", "go", some true⟩, ⟨"4", "walled", "go", some false⟩,
    ⟨"5", "walled", "turn", some true⟩, ⟨"6", "go", "walled", none⟩, ⟨"7", "turn", "free", none⟩]

def corner : Level := .plain "corner" (.ofRows ["S#"]) ⟨0, 0⟩ .east ⟨.clamp 1, 0⟩ 2

theorem cautious_never_blocked :
    (cautious.nodes.map (·.id)).Nodup ∧ cautious.GuardsMoves ∧
      (cautious.run corner 9).visited = ["in", "free", "walled", "turn", "free", "walled", "turn"] ∧
      (cautious.run corner 9).outcome.failureReason = some .maxSteps ∧
      (cautious.run corner 9).outcome.failureReason ≠ some .collision ∧
      (cautious.run corner 9).outcome.failureReason ≠ some .outOfBounds := by
  have hd : (cautious.nodes.map (·.id)).Nodup := by decide
  have hg : cautious.GuardsMoves := by decide
  have hr : (cautious.run corner 9).outcome.failureReason = some .maxSteps := by
    rw [run_eq_stagedRun]
    decide
  have hv : (cautious.run corner 9).visited =
      ["in", "free", "walled", "turn", "free", "walled", "turn"] := by
    rw [run_eq_stagedRun]
    decide
  exact ⟨hd, hg, hv, hr, guarded_never_blocked hd hg corner 9⟩

end Graph
end Flowgraph
