import Flowgraph.Proofs.Run.Cutoff
import Flowgraph.Proofs.Validation.Valid
/-!
# Valid graphs lead onward

Whatever edge a node of a valid graph is left by, there is a node at its end: a validation has looked
at all edges, and every way to choose one of them chooses an edge that leaves the node. A run of a
valid graph that stops without a verdict has therefore come to an exit node, or to a node that no
edge leaves.
-/
namespace Flowgraph
namespace Graph
variable {g : Graph} {level : Level} {ceiling k : Nat} {n : Node} {e : Edge}

theorem exists_branchEdge? (b : Bool) (ho : g.outgoing n.id ≠ []) :
    ∃ e, g.branchEdge? n b = some e := by
  obtain ⟨e, es, hes⟩ := List.exists_cons_of_ne_nil ho
  refine Option.isSome_iff_exists.mp ?_
  cases b <;> simp [branchEdge?, hes]

theorem exists_leave? (level : Level) (w : World) (hx : n.tag ≠ .exit)
    (ho : g.outgoing n.id ≠ []) : ∃ e, g.leave? level n w = some e := by
  obtain ⟨e, es, hes⟩ := List.exists_cons_of_ne_nil ho
  have hfirst : (g.outgoing n.id).head? = some e := by rw [hes]; rfl
  obtain ⟨id, kind, label⟩ := n
  cases kind with
  | entry => exact ⟨e, hfirst⟩
  | action => exact ⟨e, hfirst⟩
  | condition p => exact exists_branchEdge? _ ho
  | loop => exact ⟨e, hfirst⟩
  | exit => exact absurd rfl hx

theorem Valid.exists_follow? (h : g.Valid) (level : Level) (w : World) (hx : n.tag ≠ .exit)
    (ho : g.outgoing n.id ≠ []) : ∃ m, g.follow? level n w = some m := by
  obtain ⟨e, he⟩ := exists_leave? level w hx ho
  have hedge : e ∈ g.edges := (List.mem_filter.mp (mem_of_leave? he)).1
  obtain ⟨m, hm⟩ := exists_node?_of_declares (h.targets e hedge)
  exact ⟨m, by rw [follow?_eq_leave?, he]; exact hm⟩

theorem Valid.entry_outgoing (h : g.Valid) (he : g.entryNode? = some n) :
    g.outgoing n.id ≠ [] := by
  obtain ⟨e, hedge, hs⟩ := h.leaving n he
  exact List.ne_nil_of_mem (List.mem_filter.mpr ⟨hedge, by simp [hs]⟩)

theorem Valid.second_visit (h : g.Valid) (level : Level) :
    ∃ m, (g.stage level 1).current? = some m := by
  obtain ⟨entry, he⟩ := h.exists_entry
  have htag : entry.tag = .entry := (mem_of_entryNode? he).2
  have h0 : (g.stage level 0).current? = some entry :=
    Stage.current?_eq_some_iff.mpr ⟨rfl, he⟩
  obtain ⟨m, hm⟩ := h.exists_follow? level level.start (by rw [htag]; decide)
    (h.entry_outgoing he)
  refine ⟨m, ?_⟩
  have hw : entry.work level level.start = level.start :=
    Node.work_of_no_action (Node.action?_eq_none (by rw [htag]; decide))
  rw [stage_succ, advance_of_current h0]
  exact Stage.current?_eq_some_iff.mpr ⟨congrArg World.isTerminal hw, hm⟩

theorem exists_last_of_unfinished (he : ∃ entry, g.entryNode? = some entry)
    (hs : (g.run level ceiling).outcome.success = false)
    (hr : (g.run level ceiling).outcome.failureReason = none) :
    ∃ n w, (g.trail level ceiling).getLast? = some n ∧ n ∈ g.nodes ∧
      g.follow? level n w = none := by
  obtain ⟨entry, he⟩ := he
  rw [run_of_entry he] at hs
  rw [run_of_entry he, outcome_failureReason] at hr
  have hends : g.Ends level ceiling := ends_of_not_calledOff (by simp [hr])
  have hopen : (g.stage level ceiling).world.isTerminal = false := by
    have hf := (finalWorld_sound g level ceiling).reason
    rw [hr] at hf
    rw [← hends.finalWorld]
    exact World.isTerminal_eq_false_iff.mpr ⟨hs, hf.symm⟩
  have hlt : (g.trail level ceiling).length < ceiling := by
    rcases hends with hl | ht
    · exact hl
    · rw [hopen] at ht
      cases ht
  obtain ⟨k, v, hv⟩ := exists_isLastVisit level (show 1 ≤ ceiling by omega) he
  have hk : k + 1 < ceiling := hv.length ▸ hlt
  exact ⟨v.node, v.before, hv.getLast?_trail, mem_of_current hv.current,
    hv.follow?_eq_none hk (hv.world ▸ hopen)⟩

/-- A run of a valid graph finds an entry node and visits another one after it. It stops without a
verdict only at an exit node, or at a node that no edge leaves and that is no entry; a visit to any
other node leads to a next one. -/
theorem valid_leads_onward (hv : g.validate.valid = true) (level : Level) (ceiling : Nat) :
    (∃ entry ∈ g.nodes, entry.tag = .entry ∧
        (g.course level).index.entryNode? = some entry) ∧
      (2 ≤ ceiling → 2 ≤ (g.run level ceiling).executionSteps) ∧
      ((g.run level ceiling).outcome.success = false →
        (g.run level ceiling).outcome.failureReason = none →
        ∃ n, (g.visits level ceiling).getLast? = some n ∧
          (g.run level ceiling).visited.getLast? = some n.id ∧
          (n.tag = .exit ∨ n.tag ≠ .entry ∧ g.outgoing n.id = [])) ∧
      ∀ k n, (g.moment level k).stage.current? = some n → n.tag ≠ .exit →
        g.outgoing n.id ≠ [] →
        ((g.course level).visit n (g.moment level k).walk).1.isSome = true := by
  have h := validate_valid_iff.mp hv
  obtain ⟨entry, he⟩ := h.exists_entry
  obtain ⟨hmem, htag⟩ := mem_of_entryNode? he
  refine ⟨⟨entry, hmem, htag, ?_⟩, ?_, ?_, ?_⟩
  · rw [course, Index.entryNode?_ofGraph, he]
  · intro hc
    obtain ⟨m, hm⟩ := h.second_visit level
    rw [(run_trace g level ceiling).1]
    exact lt_length_trail hm hc
  · intro hs hr
    obtain ⟨n, w, hlast, hn, hf⟩ := exists_last_of_unfinished ⟨entry, he⟩ hs hr
    refine ⟨n, by rw [visits_eq_trail, hlast], ?_, ?_⟩
    · rw [(run_trace g level ceiling).2, List.getLast?_map, hlast]
      rfl
    · by_cases hx : n.tag = .exit
      · exact Or.inl hx
      · have ho : g.outgoing n.id = [] := by
          refine Classical.byContradiction fun ho => ?_
          obtain ⟨m, hm⟩ := h.exists_follow? level w hx ho
          rw [hf] at hm
          cases hm
        refine Or.inr ⟨fun ht => ?_, ho⟩
        obtain rfl := h.eq_entry he hn ht
        exact h.entry_outgoing he ho
  · intro k n hn hx ho
    obtain ⟨m, hm⟩ := h.exists_follow? level (g.moment level k).walk.world hx ho
    rw [(visit_spec (in_step g level k).loops level n).1, hm]
    rfl

/-- A loop around a question, which is left for a node without an edge; one id is declared twice. -/
def asking : Graph where
  nodes := [{ id := "in", kind := .entry }, { id := "again", kind := .loop { count := 4 } },
    { id := "ask", kind := .condition (.known .canMove) }, { id := "blank", kind := .action none },
    { id := "ask", kind := .exit }]
  edges := [⟨"1", "in", "again", none⟩, ⟨"2", "again", "ask", none⟩,
    ⟨"3", "ask", "again", some true⟩, ⟨"4", "ask", "blank", some false⟩]

theorem asking_leads_onward :
    asking.validate.valid = true ∧ 2 ≤ 9 ∧ 2 ≤ (asking.run nook 9).executionSteps ∧
      (asking.run nook 9).outcome.success = false ∧
      (asking.run nook 9).outcome.failureReason = none ∧
      (∃ n, (asking.visits nook 9).getLast? = some n ∧
        (asking.run nook 9).visited.getLast? = some n.id ∧
        (n.tag = .exit ∨ n.tag ≠ .entry ∧ asking.outgoing n.id = [])) ∧
      (asking.moment nook 1).stage.current? = some ⟨"again", .loop { count := 4 }, ""⟩ ∧
      ((asking.course nook).visit ⟨"again", .loop { count := 4 }, ""⟩
        (asking.moment nook 1).walk).1.isSome = true := by
  have hv : asking.validate.valid = true :=
    validate_valid_iff.mpr (errorReport_eq_nil.mp (by decide))
  have hs : (asking.run nook 9).outcome.success = false := by
    rw [run_eq_stagedRun]
    decide
  have hr : (asking.run nook 9).outcome.failureReason = none := by
    rw [run_eq_stagedRun]
    decide
  have hloop : (asking.moment nook 1).stage.current? =
      some ⟨"again", .loop { count := 4 }, ""⟩ := by
    rw [moment_stage]
    decide
  obtain ⟨-, htwo, hlast, hvisit⟩ := valid_leads_onward hv nook 9
  exact ⟨hv, by decide, htwo (by decide), hs, hr, hlast hs hr, hloop,
    hvisit 1 _ hloop (by decide) (by decide)⟩

end Graph
end Flowgraph
