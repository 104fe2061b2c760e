import Flowgraph.Diagnostic
/-!
# What diagnostics keep

Diagnostics are kept by severity, each list in the order of the pushes, and the totals say how long
the lists are.
-/
namespace Flowgraph
namespace Diagnostics
variable {ds : Diagnostics}

theorem errors_push (ds : Diagnostics) (d : Diagnostic) :
    (ds.push d).errors = ds.errors ++ [d].filter (·.severity = .error) := by
  cases h : d.severity <;> simp [push, h]

theorem errors_pushAll (ds : Diagnostics) (found : List Diagnostic) :
    (ds.pushAll found).errors = ds.errors ++ found.filter (·.severity = .error) := by
  induction found generalizing ds with
  | nil => simp [pushAll]
  | cons d found ih =>
    rw [pushAll, List.foldl_cons, ← pushAll, ih, errors_push, List.append_assoc,
      ← List.filter_append]
    rfl

theorem warnings_push (ds : Diagnostics) (d : Diagnostic) :
    (ds.push d).warnings = ds.warnings ++ [d].filter (·.severity = .warning) := by
  cases h : d.severity <;> simp [push, h]

theorem warnings_pushAll (ds : Diagnostics) (found : List Diagnostic) :
    (ds.pushAll found).warnings = ds.warnings ++ found.filter (·.severity = .warning) := by
  induction found generalizing ds with
  | nil => simp [pushAll]
  | cons d found ih =>
    rw [pushAll, List.foldl_cons, ← pushAll, ih, warnings_push, List.append_assoc,
      ← List.filter_append]
    rfl

/-- The totals are the lengths of the lists. -/
structure Counted (ds : Diagnostics) : Prop where
  errors : ds.totalErrors = ds.errors.length
  warnings : ds.totalWarnings = ds.warnings.length

theorem Counted.push (h : ds.Counted) (d : Diagnostic) : (ds.push d).Counted := by
  obtain ⟨he, hw⟩ := h
  unfold Diagnostics.push
  cases d.severity with
  | error => exact ⟨by simp [he], hw⟩
  | warning => exact ⟨he, by simp [hw]⟩

theorem Counted.pushAll (h : ds.Counted) (found : List Diagnostic) :
    (ds.pushAll found).Counted := by
  induction found generalizing ds with
  | nil => exact h
  | cons d found ih => exact ih (h.push d)

theorem Counted.valid_iff (h : ds.Counted) : ds.verdict.valid = true ↔ ds.errors = [] := by
  simp [verdict, hasErrors, h.errors]

end Diagnostics
end Flowgraph
