import Flowgraph.Proofs.Validation.Warnings
/-!
# Gathered diagnostics

Diagnostics are gathered from single findings and from validations of whole graphs, in any order. Each
addition goes to the end of the lists, and nothing that was there before matters to it. The totals go
along with the lists, so that they can be asked for what the lists would have to be searched for.
-/
namespace Flowgraph
namespace Diagnostics

/-- Whatever adds to diagnostics. -/
inductive Addition where
  | single (d : Diagnostic)
  | validation (g : Graph)

def add (ds : Diagnostics) : Addition → Diagnostics
  | .single d => ds.push d
  | .validation g => g.validateInto ds

def gather (additions : List Addition) : Diagnostics := additions.foldl add {}

namespace Addition

def errors : Addition → List Diagnostic
  | single d => if d.severity = .error then [d] else []
  | validation g => g.errorReport

def warnings : Addition → List Diagnostic
  | single d => if d.severity = .warning then [d] else []
  | validation g => g.warningReport

end Addition

/-- The totals say how long the lists are, and each list has the diagnostics of its severity. -/
structure Truthful (ds : Diagnostics) : Prop where
  totalErrors : ds.totalErrors = ds.errors.length
  totalWarnings : ds.totalWarnings = ds.warnings.length
  errors : ∀ d ∈ ds.errors, d.severity = .error
  warnings : ∀ d ∈ ds.warnings, d.severity = .warning

variable {ds : Diagnostics}

theorem Truthful.counted (h : ds.Truthful) : ds.Counted := ⟨h.totalErrors, h.totalWarnings⟩

theorem empty_truthful : Truthful {} :=
  ⟨rfl, rfl, List.forall_mem_nil _, List.forall_mem_nil _⟩

theorem Truthful.pushAll (h : ds.Truthful) (found : List Diagnostic) :
    (ds.pushAll found).Truthful := by
  have hcounted := h.counted.pushAll found
  constructor
  · exact hcounted.errors
  · exact hcounted.warnings
  · rw [errors_pushAll]
    apply List.forall_mem_append.mpr ⟨h.errors, ?_⟩
    intro d hd
    exact of_decide_eq_true (List.mem_filter.mp hd).2
  · rw [warnings_pushAll]
    apply List.forall_mem_append.mpr ⟨h.warnings, ?_⟩
    intro d hd
    exact of_decide_eq_true (List.mem_filter.mp hd).2

theorem Truthful.add (h : ds.Truthful) (a : Addition) : (ds.add a).Truthful := by
  cases a with
  | single d => exact h.pushAll [d]
  | validation g => exact h.pushAll _

structure Appends (ds report ds' : Diagnostics) : Prop where
  errors : ds'.errors = ds.errors ++ report.errors
  warnings : ds'.warnings = ds.warnings ++ report.warnings

end Diagnostics

namespace Graph
variable (g : Graph)

theorem diagnose_warnings : g.diagnose.warnings = g.warningReport :=
  (warnings_diagnose g).trans (Survey.map_advisory g)

theorem validateInto_appends (ds : Diagnostics) : ds.Appends g.diagnose (g.validateInto ds) := by
  constructor
  · rw [diagnose, validateInto, validateInto, Diagnostics.errors_pushAll,
      Diagnostics.errors_pushAll]
    rfl
  · rw [diagnose, validateInto, validateInto, Diagnostics.warnings_pushAll,
      Diagnostics.warnings_pushAll]
    rfl

end Graph

namespace Diagnostics
variable {ds : Diagnostics}

theorem errors_add (ds : Diagnostics) (a : Addition) : (ds.add a).errors = ds.errors ++ a.errors := by
  cases a with
  | single d =>
    rw [add, errors_push, Addition.errors]
    cases hs : d.severity <;> simp [hs]
  | validation g =>
    rw [add, (g.validateInto_appends ds).errors, g.diagnose_errors, Addition.errors]

theorem warnings_add (ds : Diagnostics) (a : Addition) :
    (ds.add a).warnings = ds.warnings ++ a.warnings := by
  cases a with
  | single d =>
    rw [add, warnings_push, Addition.warnings]
    cases hs : d.severity <;> simp [hs]
  | validation g =>
    rw [add, (g.validateInto_appends ds).warnings, g.diagnose_warnings, Addition.warnings]

/-- What additions leave, when they come on top of what is there. -/
structure Holds (ds : Diagnostics) (additions : List Addition) (ds' : Diagnostics) : Prop where
  truthful : ds'.Truthful
  errors : ds'.errors = ds.errors ++ additions.flatMap Addition.errors
  warnings : ds'.warnings = ds.warnings ++ additions.flatMap Addition.warnings

theorem holds_foldl_add (h : ds.Truthful) (additions : List Addition) :
    ds.Holds additions (additions.foldl add ds) := by
  induction additions generalizing ds with
  | nil => exact ⟨h, (List.append_nil _).symm, (List.append_nil _).symm⟩
  | cons a additions ih =>
    obtain ⟨truthful, errors, warnings⟩ := ih (h.add a)
    constructor
    · exact truthful
    · rw [List.foldl_cons, errors, errors_add, List.flatMap_cons, List.append_assoc]
    · rw [List.foldl_cons, warnings, warnings_add, List.flatMap_cons, List.append_assoc]

theorem hasCode_iff {c : Code} :
    ds.hasCode c = true ↔ ∃ d, (d ∈ ds.errors ∨ d ∈ ds.warnings) ∧ d.code = c := by
  simp [hasCode, or_and_right, exists_or]

/-- Whatever was gathered, the totals and the lists tell it as it was, in the order of the additions. A
validation adds what it finds on its own, and adds it again when it is done again. -/
theorem gathered_truthfully (additions : List Addition) (g : Graph) (c : Code) :
    (gather additions).Truthful ∧
      (gather additions).errors = additions.flatMap Addition.errors ∧
      (gather additions).warnings = additions.flatMap Addition.warnings ∧
      (gather additions).Appends g.diagnose (g.validateInto (gather additions)) ∧
      (g.validateInto (gather additions)).Appends g.diagnose
        (g.validateInto (g.validateInto (gather additions))) ∧
      ((gather additions).hasCode c = true ↔
        ∃ d, (d ∈ (gather additions).errors ∨ d ∈ (gather additions).warnings) ∧ d.code = c) ∧
      ((gather additions).verdict.valid = true ↔ (gather additions).errors = []) ∧
      (gather additions).verdict.errors = (gather additions).errors.map (·.message) := by
  obtain ⟨truthful, errors, warnings⟩ := holds_foldl_add empty_truthful additions
  have again := g.validateInto_appends
  exact ⟨truthful, errors, warnings, again _, again _, hasCode_iff, truthful.counted.valid_iff, rfl⟩

def interrupted : List Addition :=
  [.single (.warning ⟨400⟩ "no action"), .validation Graph.tangled, .single (.error ⟨102⟩ "no exit")]

theorem interrupted_told :
    (gather interrupted).totalErrors = 5 ∧
      (gather interrupted).errors.map (·.code.number) = [101, 102, 201, 302, 102] ∧
      (gather interrupted).warnings = [.warning ⟨400⟩ "no action"] ∧
      (Diagnostic.error ⟨102⟩ "no exit" ∈ (gather interrupted).errors ∧
        (Diagnostic.error ⟨102⟩ "no exit").severity = .error) ∧
      (Graph.tangled.validateInto (gather interrupted)).errors.map (·.code.number) =
        [101, 102, 201, 302, 102, 101, 102, 201, 302] ∧
      (gather interrupted).verdict.valid = false := by
  obtain ⟨truthful, errors, warnings, again, -, -, valid, -⟩ :=
    gathered_truthfully interrupted Graph.tangled ⟨102⟩
  have hmem : Diagnostic.error ⟨102⟩ "no exit" ∈ (gather interrupted).errors := by
    rw [errors]
    decide +kernel
  refine ⟨?_, ?_, ?_, ⟨hmem, truthful.errors _ hmem⟩, ?_, ?_⟩
  · rw [truthful.totalErrors, errors]
    decide +kernel
  · rw [errors]
    decide +kernel
  · rw [warnings]
    decide +kernel
  · rw [again.errors, errors, Graph.diagnose_errors]
    decide +kernel
  · rw [Bool.eq_false_iff, ne_eq, valid]
    exact List.ne_nil_of_mem hmem

end Diagnostics
end Flowgraph
