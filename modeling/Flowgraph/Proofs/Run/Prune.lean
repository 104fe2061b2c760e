import Flowgraph.Proofs.Reach
import Flowgraph.Proofs.Run.Invariant
import Flowgraph.Proofs.Run.Moment
/-!
# Pruning

A run visits only nodes whose ids are listed as reachable. The rest of the graph can be dropped:
what is left runs alike on every level, and has the same listing.
-/
namespace Flowgraph
namespace Graph
variable {g : Graph} {level : Level} {ids : List String} {n : Node} {e : Edge}

theorem target?_restrict (hc : g.Closed ids) (hn : n.id ∈ ids) (he : e ∈ g.outgoing n.id) :
    (g.restrict ids).target? e = g.target? e := by
  rw [target?, target?, node?_restrict]
  cases hm : g.node? e.target with
  | none => exact ite_self none
  | some m => rw [if_pos (hc n.id hn e he m hm)]

theorem bind_target?_restrict (hc : g.Closed ids) (hn : n.id ∈ ids) {e? : Option Edge}
    (he : ∀ e, e? = some e → e ∈ g.outgoing n.id) :
    e?.bind (g.restrict ids).target? = e?.bind g.target? ∧
      ∀ m, e?.bind g.target? = some m → m.id ∈ ids := by
  refine ⟨Option.bind_congr fun e h => target?_restrict hc hn (he e h), fun m hm => ?_⟩
  obtain ⟨e, h, ht⟩ := Option.bind_eq_some_iff.mp hm
  rw [id_of_node? ht]
  exact hc n.id hn e (he e h) m ht

theorem follow?_restrict (hc : g.Closed ids) (hn : n.id ∈ ids) (level : Level) (w : World) :
    (g.restrict ids).follow? level n w = g.follow? level n w ∧
      ∀ m, g.follow? level n w = some m → m.id ∈ ids := by
  rw [follow?_eq_leave?, follow?_eq_leave?, leave?_congr (outgoing_restrict g hn)]
  exact bind_target?_restrict hc hn fun e he => mem_of_leave? he

/-- What comes next always goes by one of the ids, if the entry node does. -/
structure KeptStage (g : Graph) (level : Level) (ids : List String) (k : Nat) : Prop where
  stage : (g.restrict ids).stage level k = g.stage level k
  next : ∀ n, (g.stage level k).next = some n → n.id ∈ ids

theorem kept_stage (hc : g.Closed ids) (hentry : ∀ n, g.entryNode? = some n → n.id ∈ ids)
    (level : Level) (k : Nat) : KeptStage g level ids k := by
  induction k with
  | zero => exact ⟨congrArg (Stage.mk · level.start) (entryNode?_restrict hentry), hentry⟩
  | succ k ih =>
    obtain ⟨hs, hn⟩ := ih
    cases hcur : (g.stage level k).current? with
    | none =>
      have hover : g.advance level (g.stage level k) = g.stage level k := advance_of_over hcur
      have hover' : (g.restrict ids).advance level (g.stage level k) = g.stage level k :=
        advance_of_over hcur
      constructor
      · rw [stage_succ, stage_succ, hs, hover, hover']
      · rw [stage_succ, hover]
        exact hn
    | some n =>
      have hid := hn n (Stage.current?_eq_some_iff.mp hcur).2
      obtain ⟨hf, hm⟩ := follow?_restrict hc hid level (g.stage level k).world
      constructor
      · rw [stage_succ, stage_succ, hs, advance_of_current hcur, advance_of_current hcur, hf]
      · rw [stage_succ, advance_of_current hcur]
        exact hm

theorem visited_within (hc : g.Closed ids) (hentry : ∀ n, g.entryNode? = some n → n.id ∈ ids)
    {id : String} {ceiling : Nat} (h : id ∈ (g.run level ceiling).visited) : id ∈ ids := by
  rw [(run_trace g level ceiling).2] at h
  obtain ⟨n, hn, rfl⟩ := List.mem_map.mp h
  obtain ⟨k, -, hk⟩ := List.mem_filterMap.mp hn
  exact (kept_stage hc hentry level k).next n (Stage.current?_eq_some_iff.mp hk).2

/-- Every visit is to a listed id, and the graph cut down to the listed ids runs alike. -/
theorem unreachable_irrelevant (g : Graph) (level : Level) (ceiling : Nat) :
    (∀ id ∈ (g.run level ceiling).visited, id ∈ g.reachIds) ∧
      (g.restrict g.reachIds).run level ceiling = g.run level ceiling ∧
      (g.restrict g.reachIds).reach = g.reach := by
  have hc := closed_reachIds g
  have hentry := fun n (hn : g.entryNode? = some n) => entry_id_mem_reachIds hn
  have hstages : ∀ k, (g.restrict g.reachIds).stage level k = g.stage level k := by
    intro k
    exact (kept_stage hc hentry level k).stage
  refine ⟨?_, ?_, reach_restrict g⟩
  · intro id h
    exact visited_within hc hentry h
  · exact run_congr (entryNode?_restrict hentry) hstages ceiling

def corridor : Level := .plain "corridor" (.ofRows ["S.G"]) ⟨0, 0⟩ .east ⟨.clamp 2, 0⟩ 5

def detour : Graph where
  nodes := [{ id := "go", kind := .action (some (.known .move)) }, { id := "in", kind := .entry },
    { id := "blank", kind := .action none }, { id := "in", kind := .exit }]
  edges := [⟨"1", "go", "blank", none⟩, ⟨"2", "in", "blank", none⟩, ⟨"3", "in", "nowhere", none⟩]

theorem detour_cut :
    "blank" ∈ (detour.run corridor 9).visited ∧ "blank" ∈ detour.reachIds ∧
      (detour.restrict detour.reachIds).run corridor 9 = detour.run corridor 9 := by
  have hv : "blank" ∈ (detour.run corridor 9).visited := by
    rw [run_eq_stagedRun]
    decide
  obtain ⟨hreach, hrun, -⟩ := unreachable_irrelevant detour corridor 9
  exact ⟨hv, hreach "blank" hv, hrun⟩

end Graph
end Flowgraph
