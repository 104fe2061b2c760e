import Flowgraph.Proofs.Run.Ceiling
import Flowgraph.Proofs.Run.Repeats
import Flowgraph.Proofs.Validation.Valid
import Mathlib.Data.List.FinRange
/-!
# Orders of declaration

With distinct ids and a single entry node, a graph is no more than its nodes and, for each id, the
sequence of edges that leave it. The nodes may be declared in any order. So may the edges, as long
as two edges that leave one id are not turned round: which of them comes first decides where control
goes.
-/
namespace Flowgraph

section Perm
variable {α : Type} {l l' : List α}

theorem perm_ofFn_getElem (l : List α) (σ : Equiv.Perm (Fin l.length)) :
    (List.ofFn fun i => l[σ i]).Perm l := by
  calc (List.ofFn fun i => l[σ i]).Perm (List.ofFn l.get) := σ.ofFn_comp_perm l.get
    _ = l := List.ofFn_get l

theorem filter_ofFn_getElem (σ : Equiv.Perm (Fin l.length)) (p : α → Bool)
    (h : ∀ i j, i < j → p l[σ i] = true → p l[σ j] = true → σ i < σ j) :
    (List.ofFn fun i => l[σ i]).filter p = l.filter p := by
  -- the accepted positions are the same ones, and they increase on both sides
  have hperm : (((List.finRange l.length).map σ).filter fun i => p l[i]).Perm
      ((List.finRange l.length).filter fun i => p l[i]) :=
    σ.map_finRange_perm.filter _
  have hsorted := List.pairwise_lt_finRange l.length
  have hleft : (((List.finRange l.length).map σ).filter fun i => p l[i]).Pairwise (· < ·) := by
    rw [List.pairwise_filter, List.pairwise_map]
    exact hsorted.imp fun hij hi hj => h _ _ hij hi hj
  have hright : ((List.finRange l.length).filter fun i => p l[i]).Pairwise (· < ·) :=
    hsorted.filter _
  have hpositions := hperm.eq_of_pairwise (fun i j _ _ hij hji => absurd hij (lt_asymm hji))
    hleft hright
  have hl : (List.finRange l.length).map l.get = l := by
    rw [← List.ofFn_eq_map, List.ofFn_get]
  calc (List.ofFn fun i => l[σ i]).filter p
    _ = (((List.finRange l.length).map σ).filter fun i => p l[i]).map l.get := by
      rw [List.ofFn_eq_map, List.filter_map, List.filter_map, List.map_map]
      rfl
    _ = ((List.finRange l.length).filter fun i => p l[i]).map l.get := by
      rw [hpositions]
    _ = ((List.finRange l.length).map l.get).filter p := by
      rw [List.filter_map]
      rfl
    _ = l.filter p := by
      rw [hl]

end Perm

namespace Graph
variable {g g' : Graph}

def reorder (g : Graph) (σ : Equiv.Perm (Fin g.nodes.length))
    (τ : Equiv.Perm (Fin g.edges.length)) : Graph where
  nodes := List.ofFn fun i => g.nodes[σ i]
  edges := List.ofFn fun i => g.edges[τ i]

/-- Edges that leave one id follow each other as before. -/
def KeepsTurns (g : Graph) (τ : Equiv.Perm (Fin g.edges.length)) : Prop :=
  ∀ i j, i < j → g.edges[τ i].source = g.edges[τ j].source → τ i < τ j

instance (g : Graph) (τ : Equiv.Perm (Fin g.edges.length)) : Decidable (g.KeepsTurns τ) :=
  inferInstanceAs (Decidable (∀ i j, i < j → g.edges[τ i].source = g.edges[τ j].source → τ i < τ j))

/-- Two graphs of the same nodes and edges. -/
structure SameParts (g g' : Graph) : Prop where
  nodes : g'.nodes.Perm g.nodes
  edges : g'.edges.Perm g.edges

namespace SameParts

theorem symm (h : SameParts g g') : SameParts g' g := ⟨h.nodes.symm, h.edges.symm⟩

theorem node? (h : SameParts g g') (hd : (g.nodes.map (·.id)).Nodup) (id : String) :
    g'.node? id = g.node? id := by
  have hd' : (g'.nodes.map (·.id)).Nodup := (h.nodes.map _).nodup_iff.mpr hd
  ext n
  rw [node?_eq_some_iff hd, node?_eq_some_iff hd', h.nodes.mem_iff]

theorem nodesOf_entry (h : SameParts g g') (he : (g.nodesOf .entry).length ≤ 1) :
    g'.nodesOf .entry = g.nodesOf .entry := by
  have hperm : (g'.nodesOf .entry).Perm (g.nodesOf .entry) := h.nodes.filter _
  -- no order can be told from another one where there is a single element at most
  match hl : g.nodesOf .entry with
  | [] => exact (hl ▸ hperm).eq_nil
  | [n] => exact (hl ▸ hperm).eq_singleton
  | _ :: _ :: _ => simp [hl] at he

theorem declares (h : SameParts g g') {id : String} (hid : g.Declares id) : g'.Declares id := by
  obtain ⟨n, hn, rfl⟩ := hid
  exact ⟨n, h.nodes.mem_iff.mpr hn, rfl⟩

theorem valid (h : SameParts g g') (hv : g.Valid) : g'.Valid := by
  obtain ⟨entry, hentry⟩ := hv.entry
  have hsame : g'.nodesOf .entry = g.nodesOf .entry := h.nodesOf_entry (by rw [hentry]; rfl)
  constructor
  · exact ⟨entry, hsame.trans hentry⟩
  · intro e he
    exact h.declares (hv.sources e (h.edges.mem_iff.mp he))
  · intro e he
    exact h.declares (hv.targets e (h.edges.mem_iff.mp he))
  · intro n hn
    rw [entryNode?, hsame] at hn
    obtain ⟨e, he, hs⟩ := hv.leaving n hn
    exact ⟨e, h.edges.mem_iff.mpr he, hs⟩
  · obtain ⟨n, hn, ht, e, he, hs⟩ := hv.arrival
    exact ⟨n, h.nodes.mem_iff.mpr hn, ht, e, h.edges.mem_iff.mpr he, hs⟩
  · intro n hn ht
    obtain ⟨e, he, hends⟩ := hv.linked n (h.nodes.mem_iff.mp hn) ht
    exact ⟨e, h.edges.mem_iff.mpr he, hends⟩

theorem validate_valid (h : SameParts g g') : g'.validate.valid = g.validate.valid := by
  rw [Bool.eq_iff_iff, validate_valid_iff, validate_valid_iff]
  exact ⟨h.symm.valid, h.valid⟩

end SameParts

section Reorder
variable (σ : Equiv.Perm (Fin g.nodes.length)) {τ : Equiv.Perm (Fin g.edges.length)}

theorem reorder_sameParts (τ : Equiv.Perm (Fin g.edges.length)) :
    SameParts g (g.reorder σ τ) :=
  ⟨perm_ofFn_getElem g.nodes σ, perm_ofFn_getElem g.edges τ⟩

theorem outgoing_reorder (hτ : g.KeepsTurns τ) (id : String) :
    (g.reorder σ τ).outgoing id = g.outgoing id := by
  refine filter_ofFn_getElem τ _ ?_
  intro i j hij hi hj
  exact hτ i j hij ((beq_iff_eq.mp hi).trans (beq_iff_eq.mp hj).symm)

theorem reorder_sameLookups (hd : (g.nodes.map (·.id)).Nodup)
    (he : (g.nodesOf .entry).length ≤ 1) (hτ : g.KeepsTurns τ) :
    SameLookups g (g.reorder σ τ) where
  entry := by rw [entryNode?, entryNode?, (reorder_sameParts σ τ).nodesOf_entry he]
  node := (reorder_sameParts σ τ).node? hd
  outgoing := outgoing_reorder σ hτ

/-- The order in which a graph is declared makes no difference to a run, to the listing or to the
verdict, if no two edges that leave one id are turned round. -/
theorem declaration_order_irrelevant (hd : (g.nodes.map (·.id)).Nodup)
    (he : (g.nodesOf .entry).length ≤ 1) (hτ : g.KeepsTurns τ) (level : Level) (ceiling : Nat) :
    (g.reorder σ τ).run level ceiling = g.run level ceiling ∧
      (g.reorder σ τ).reach = g.reach ∧
      (g.reorder σ τ).validate.valid = g.validate.valid := by
  have hsame := reorder_sameLookups σ hd he hτ
  exact ⟨hsame.unnoticed.run level ceiling, hsame.reach, (reorder_sameParts σ τ).validate_valid⟩

end Reorder

/-- A question with no edge marked: the first one is for yes, and the second one for no. -/
def unmarked : Graph where
  nodes := [{ id := "in", kind := .entry }, { id := "ask", kind := .condition (.known .canMove) },
    { id := "go", kind := .action (some (.known .move)) }, { id := "out", kind := .exit }]
  edges := [⟨"1", "in", "ask", none⟩, ⟨"2", "ask", "go", none⟩, ⟨"3", "ask", "out", none⟩,
    ⟨"4", "go", "ask", none⟩]

def lastFirst : Equiv.Perm (Fin unmarked.nodes.length) := Fin.revPerm

def endsTraded : Equiv.Perm (Fin unmarked.edges.length) :=
  Equiv.swap ⟨0, by decide⟩ ⟨3, by decide⟩

theorem unmarked_reordered :
    (unmarked.nodes.map (·.id)).Nodup ∧ (unmarked.nodesOf .entry).length ≤ 1 ∧
      unmarked.KeepsTurns endsTraded ∧
      (unmarked.reorder lastFirst endsTraded).nodes.map (·.id) = ["out", "go", "ask", "in"] ∧
      (unmarked.reorder lastFirst endsTraded).edges.map (·.id) = ["4", "2", "3", "1"] ∧
      ((unmarked.reorder lastFirst endsTraded).run shortStay 9).visited =
        ["in", "ask", "go", "ask", "go"] ∧
      (unmarked.reorder lastFirst endsTraded).reach = unmarked.reach ∧
      (unmarked.reorder lastFirst endsTraded).validate.valid = true := by
  have hd : (unmarked.nodes.map (·.id)).Nodup := by decide
  have he : (unmarked.nodesOf .entry).length ≤ 1 := by decide
  have hτ : unmarked.KeepsTurns endsTraded := by decide
  have hv : (unmarked.run shortStay 9).visited = ["in", "ask", "go", "ask", "go"] := by
    rw [run_eq_stagedRun]
    decide
  have hvalid : unmarked.validate.valid = true :=
    validate_valid_iff.mpr (errorReport_eq_nil.mp (by decide))
  obtain ⟨hrun, hreach, hsame⟩ := declaration_order_irrelevant lastFirst hd he hτ shortStay 9
  refine ⟨hd, he, hτ, by decide, by decide, ?_, hreach, hsame.trans hvalid⟩
  rw [hrun]
  exact hv

end Graph
end Flowgraph
