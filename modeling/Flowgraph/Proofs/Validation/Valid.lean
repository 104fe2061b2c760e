import Flowgraph.Proofs.Validation.Errors
/-!
# Valid graphs

What the errors leave of a graph: a single entry node that an edge leaves, edges that join declared
ids, an exit node that an edge leads to, and no loose node in between.
-/
namespace Flowgraph
namespace Graph

structure Valid (g : Graph) : Prop where
  entry : ∃ n, g.nodesOf .entry = [n]
  sources : ∀ e ∈ g.edges, g.Declares e.source
  targets : ∀ e ∈ g.edges, g.Declares e.target
  leaving : ∀ n, g.entryNode? = some n → ∃ e ∈ g.edges, e.source = n.id
  arrival : ∃ n ∈ g.nodes, n.tag = .exit ∧ ∃ e ∈ g.edges, e.target = n.id
  linked : ∀ n ∈ g.nodes, n.tag ∈ [Tag.action, .condition, .loop] → g.Links n.id

variable {g : Graph}

theorem entryErrors_eq_nil : g.entryErrors = [] ↔ ∃ n, g.nodesOf .entry = [n] := by
  rw [← List.length_eq_one_iff, entryErrors]
  split
  · next h => simp [h]
  · next h => simp [h]
  · next h => simp [h]

theorem edgeErrors_eq_nil {e : Edge} :
    g.edgeErrors e = [] ↔ g.Declares e.source ∧ g.Declares e.target := by
  simp [edgeErrors]

theorem leavingErrors_eq_nil :
    g.leavingErrors = [] ↔ ∀ n, g.entryNode? = some n → ∃ e ∈ g.edges, e.source = n.id := by
  unfold leavingErrors
  cases g.entryNode? <;> simp

theorem exitErrors_eq_nil_and_arrivalErrors_eq_nil :
    g.exitErrors = [] ∧ g.arrivalErrors = [] ↔
      ∃ n ∈ g.nodes, n.tag = .exit ∧ ∃ e ∈ g.edges, e.target = n.id := by
  constructor
  · rintro ⟨hx, ha⟩
    have hexit : ∃ n ∈ g.nodes, n.tag = .exit := by simpa [exitErrors] using hx
    refine Classical.byContradiction fun hn => ?_
    rw [arrivalErrors, if_pos ⟨hexit, hn⟩] at ha
    cases ha
  · rintro ⟨n, hn, hx, he⟩
    exact ⟨if_pos ⟨n, hn, hx⟩, if_neg fun h => h.2 ⟨n, hn, hx, he⟩⟩

theorem looseErrors_eq_nil {n : Node} :
    g.looseErrors n = [] ↔ (n.tag ∈ [Tag.action, .condition, .loop] → g.Links n.id) := by
  unfold looseErrors
  split_ifs with h
  · simp [h]
  · simpa [not_and] using h

theorem errorReport_eq_nil : g.errorReport = [] ↔ g.Valid := by
  simp only [errorReport, List.append_eq_nil_iff, List.flatMap_eq_nil_iff, entryErrors_eq_nil,
    edgeErrors_eq_nil, leavingErrors_eq_nil, looseErrors_eq_nil]
  constructor
  · rintro ⟨⟨⟨⟨⟨hentry, hx⟩, hedges⟩, hleaving⟩, ha⟩, hloose⟩
    exact ⟨hentry, fun e he => (hedges e he).1, fun e he => (hedges e he).2, hleaving,
      exitErrors_eq_nil_and_arrivalErrors_eq_nil.mp ⟨hx, ha⟩, hloose⟩
  · intro h
    obtain ⟨hx, ha⟩ := exitErrors_eq_nil_and_arrivalErrors_eq_nil.mpr h.arrival
    exact ⟨⟨⟨⟨⟨h.entry, hx⟩, fun e he => ⟨h.sources e he, h.targets e he⟩⟩, h.leaving⟩, ha⟩,
      h.linked⟩

theorem validate_valid_iff : g.validate.valid = true ↔ g.Valid := by
  rw [← errorReport_eq_nil, ← diagnose_errors]
  exact (diagnose_counted g).valid_iff

theorem Valid.eq_entry (h : g.Valid) {entry n : Node} (he : g.entryNode? = some entry)
    (hn : n ∈ g.nodes) (ht : n.tag = .entry) : n = entry := by
  obtain ⟨n', hl⟩ := h.entry
  have hmem : n ∈ g.nodesOf .entry := List.mem_filter.mpr ⟨hn, by simp [ht]⟩
  rw [hl, List.mem_singleton] at hmem
  rw [entryNode?, hl] at he
  exact hmem.trans (Option.some.inj he)

theorem Valid.exists_entry (h : g.Valid) : ∃ n, g.entryNode? = some n := by
  obtain ⟨n, hl⟩ := h.entry
  exact ⟨n, by rw [entryNode?, hl]; rfl⟩

end Graph
end Flowgraph
