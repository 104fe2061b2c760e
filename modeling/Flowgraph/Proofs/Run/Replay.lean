import Flowgraph.Proofs.Run.Cutoff
/-!
# Replaying a trace

A trace is enough to play a run back. The nodes that it names carry the actions, and these lead from
the start to the world that the run left. Nothing else touches the world, but for the mark of a run
that was called off.
-/
namespace Flowgraph

theorem World.failureReason_act_ne {w : World} {level : Level} (hw : w.isTerminal = false)
    (h : w.failureReason ≠ some .infiniteLoop) (a : ActionKey) :
    (w.act level a).failureReason ≠ some .infiniteLoop := by
  have he := act_effect level a hw
  generalize w.act level a = u at he
  intro hr
  cases he with
  | blocked hb =>
    rcases (blocked?_eq_some_iff.mp hb).2 with ⟨rfl, -⟩ | ⟨rfl, -⟩
    · cases hr
    · cases hr
  | reached hb => exact h ((attempt_failureReason hb).symm.trans hr)
  | spent => cases hr
  | going hb => exact h ((attempt_failureReason hb).symm.trans hr)

theorem World.foldl_act_stepCount (level : Level) (actions : List ActionKey) (w : World) :
    (actions.foldl (fun w a => w.act level a) w).stepCount = w.stepCount + actions.length := by
  induction actions generalizing w with
  | nil => rfl
  | cons a actions ih =>
    rw [List.foldl_cons, ih, act_stepCount, List.length_cons]
    omega

namespace Graph

/-- The action of the node that goes by an id, if it is an action node with one. -/
def actionAt? (g : Graph) (id : String) : Option ActionKey := (g.node? id).bind Node.action?

/-- The world after the actions of the nodes that a trace names, from the start on. -/
def replay (g : Graph) (level : Level) (visited : List String) : World :=
  (visited.filterMap g.actionAt?).foldl (fun w a => w.act level a) level.start

variable {g : Graph} {level : Level} {ceiling k : Nat} {n : Node}

theorem actionAt?_of_mem (hd : (g.nodes.map (·.id)).Nodup) (hn : n ∈ g.nodes) :
    g.actionAt? n.id = n.action? := by
  rw [actionAt?, node?_of_mem hd hn]
  rfl

theorem stage_world_eq_foldl (g : Graph) (level : Level) (k : Nat) :
    (g.stage level k).world =
      ((g.trail level k).filterMap Node.action?).foldl (fun w a => w.act level a)
        level.start := by
  induction k with
  | zero => rfl
  | succ k ih =>
    rw [stage_succ, trail_succ, List.filterMap_append, List.foldl_append, ← ih]
    cases hc : (g.stage level k).current? with
    | none =>
      rw [advance_of_over hc]
      rfl
    | some n =>
      rw [advance_of_current hc]
      cases ha : n.action? with
      | none => simp [Node.work_of_no_action ha, ha]
      | some a => simp [Node.work_of_action ha, ha]

theorem mem_of_mem_trail (h : n ∈ g.trail level k) : n ∈ g.nodes := by
  obtain ⟨i, -, hi⟩ := List.mem_filterMap.mp h
  exact mem_of_current hi

theorem filterMap_visited (hd : (g.nodes.map (·.id)).Nodup) (level : Level) (ceiling : Nat) :
    (g.run level ceiling).visited.filterMap g.actionAt? =
      (g.trail level ceiling).filterMap Node.action? := by
  rw [(run_trace g level ceiling).2, List.filterMap_map]
  apply List.filterMap_congr
  intro n hn
  exact actionAt?_of_mem hd (mem_of_mem_trail hn)

theorem replay_visited (hd : (g.nodes.map (·.id)).Nodup) (level : Level) (ceiling : Nat) :
    g.replay level (g.run level ceiling).visited = (g.stage level ceiling).world := by
  rw [replay, filterMap_visited hd, stage_world_eq_foldl]

theorem stage_failureReason_ne (g : Graph) (level : Level) (k : Nat) :
    (g.stage level k).world.failureReason ≠ some .infiniteLoop :=
  world_induction (P := fun w => w.failureReason ≠ some .infiniteLoop) (fun h => by cases h)
    (fun _ a hw h => World.failureReason_act_ne hw h a) k

theorem finalWorld_eq (g : Graph) (level : Level) (ceiling : Nat) :
    ((g.finalWorld level ceiling).failureReason ≠ some .infiniteLoop →
        g.finalWorld level ceiling = (g.stage level ceiling).world) ∧
      ((g.finalWorld level ceiling).failureReason = some .infiniteLoop →
        g.finalWorld level ceiling = { (g.stage level ceiling).world with
          isFailed := true
          failureReason := some .infiniteLoop }) := by
  have hne := stage_failureReason_ne g level ceiling
  cases ht : (g.stage level ceiling).world.isTerminal with
  | true =>
    rw [finalWorld_of_terminal ht]
    exact ⟨fun _ => rfl, fun hr => absurd hr hne⟩
  | false =>
    rcases finalWorld_cases g level ceiling with hf | hf
    · rw [hf]
      exact ⟨fun _ => rfl, fun hr => absurd hr hne⟩
    · rw [hf, World.markFailed_of_open ht]
      exact ⟨fun hr => absurd rfl hr, fun _ => rfl⟩

/-- In a graph with distinct ids, the actions of the nodes that the trace names lead from the start
to the final state, but for the mark of a run that was called off. There is a step for each of them,
and for no other node of the trace. -/
theorem trace_replays (hd : (g.nodes.map (·.id)).Nodup) (level : Level) (ceiling : Nat) :
    (∃ w, (g.run level ceiling).outcome.finalState = some w ∧
        (w.failureReason ≠ some .infiniteLoop →
          w = g.replay level (g.run level ceiling).visited) ∧
        (w.failureReason = some .infiniteLoop →
          w = { g.replay level (g.run level ceiling).visited with
            isFailed := true
            failureReason := some .infiniteLoop })) ∧
      (g.run level ceiling).outcome.stepCount =
        (g.run level ceiling).visited.countP (fun id => (g.actionAt? id).isSome) ∧
      ∀ n ∈ g.nodes, ∀ a, g.actionAt? n.id = some a ↔ n.kind = .action (some a) := by
  have hreplay := replay_visited hd level ceiling
  refine ⟨?_, ?_, ?_⟩
  · rw [hreplay]
    cases he : g.entryNode? with
    | none =>
      rw [run_of_no_entry he, stage_of_over (over_of_no_entry he level 0) (Nat.zero_le ceiling)]
      exact ⟨_, rfl, fun _ => rfl, fun hr => by cases hr⟩
    | some entry =>
      rw [run_of_entry he]
      exact ⟨_, rfl, finalWorld_eq g level ceiling⟩
  · rw [run_stepCount, ← hreplay, replay, World.foldl_act_stepCount,
      ← List.length_filterMap_eq_countP]
    exact Nat.zero_add _
  · intro n hn a
    rw [actionAt?_of_mem hd hn]
    obtain ⟨id, kind, label⟩ := n
    cases kind <;> simp [Node.action?]

def errand : Graph where
  nodes := [{ id := "in", kind := .entry },
    { id := "jump", kind := .action (some (.ofWord "jump")) },
    { id := "ask", kind := .condition (.known .canMove) },
    { id := "again", kind := .loop { count := 5 } }, { id := "blank", kind := .action none },
    { id := "go", kind := .action (some (.known .move)) }]
  edges := [⟨"1", "in", "jump", none⟩, ⟨"2", "jump", "ask", none⟩, ⟨"3", "ask", "again", some true⟩,
    ⟨"4", "again", "blank", none⟩, ⟨"5", "blank", "go", none⟩, ⟨"6", "go", "ask", none⟩]

/-- The run is called off before the move, or spends the budget on it. -/
theorem errand_replayed :
    (errand.nodes.map (·.id)).Nodup ∧
      (errand.run shortStay 5).visited = ["in", "jump", "ask", "again", "blank"] ∧
      (errand.run shortStay 5).outcome.failureReason = some .infiniteLoop ∧
      (errand.run shortStay 5).outcome.finalState =
        some { errand.replay shortStay ["in", "jump", "ask", "again", "blank"] with
          isFailed := true
          failureReason := some .infiniteLoop } ∧
      (errand.run shortStay 9).visited = ["in", "jump", "ask", "again", "blank", "go"] ∧
      (errand.run shortStay 9).outcome.failureReason = some .maxSteps ∧
      (errand.run shortStay 9).outcome.finalState =
        some (errand.replay shortStay ["in", "jump", "ask", "again", "blank", "go"]) ∧
      (errand.run shortStay 9).outcome.stepCount = 2 ∧
      errand.actionAt? "jump" = some (.ofWord "jump") := by
  have hd : (errand.nodes.map (·.id)).Nodup := by decide
  have hv₅ : (errand.run shortStay 5).visited = ["in", "jump", "ask", "again", "blank"] := by
    rw [run_eq_stagedRun]
    decide
  have hr₅ : (errand.run shortStay 5).outcome.failureReason = some .infiniteLoop := by
    rw [run_eq_stagedRun]
    decide
  have hv₉ : (errand.run shortStay 9).visited = ["in", "jump", "ask", "again", "blank", "go"] := by
    rw [run_eq_stagedRun]
    decide
  have hr₉ : (errand.run shortStay 9).outcome.failureReason = some .maxSteps := by
    rw [run_eq_stagedRun]
    decide
  obtain ⟨⟨w₅, hw₅, -, hoff⟩, -, -⟩ := trace_replays hd shortStay 5
  obtain ⟨⟨w₉, hw₉, hon, -⟩, hcount, haction⟩ := trace_replays hd shortStay 9
  rw [Outcome.failureReason, hw₅] at hr₅
  rw [Outcome.failureReason, hw₉] at hr₉
  refine ⟨hd, hv₅, ?_, ?_, hv₉, ?_, ?_, ?_, ?_⟩
  · rw [Outcome.failureReason, hw₅]
    exact hr₅
  · rw [hw₅, hoff hr₅, hv₅]
  · rw [Outcome.failureReason, hw₉]
    exact hr₉
  · rw [hw₉, ← hv₉, ← hon (by rw [show w₉.failureReason = _ from hr₉]; decide)]
  · rw [hcount, hv₉]
    decide
  · exact (haction ⟨"jump", .action (some (.ofWord "jump")), ""⟩ (by decide) _).mpr rfl

end Graph
end Flowgraph
