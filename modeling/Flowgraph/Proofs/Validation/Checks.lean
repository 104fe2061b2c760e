import Flowgraph.Proofs.Diagnostics
import Flowgraph.Validation
import Mathlib.Tactic.SplitIfs
/-!
# What the checks find

Each check of a validation has codes of its own. So the findings of some codes are the findings of
the checks that have these codes, and whether a finding is an error is a matter of its code. The
errors of a validation are what the first checks find, and its warnings what the others find.
-/
namespace Flowgraph

namespace Finding

/-- The findings are of these codes. -/
def Coded (codes : List Code) (fs : List Finding) : Prop := ∀ f ∈ fs, f.code ∈ codes

namespace Coded
variable {codes wanted : List Code} {fs : List Finding}

theorem singleton {f : Finding} (h : f.code ∈ codes) : Coded codes [f] :=
  List.forall_mem_singleton.mpr h

theorem nil (codes : List Code) : Coded codes [] := List.forall_mem_nil _

theorem append {fs' : List Finding} (h : Coded codes fs) (h' : Coded codes fs') :
    Coded codes (fs ++ fs') :=
  List.forall_mem_append.mpr ⟨h, h'⟩

theorem flatMap {α : Type} {f : α → List Finding} (h : ∀ a, Coded codes (f a)) (as : List α) :
    Coded codes (as.flatMap f) := by
  intro x hx
  obtain ⟨a, -, hx⟩ := List.mem_flatMap.mp hx
  exact h a x hx

theorem ite {p : Prop} [Decidable p] {fs' : List Finding} (h : Coded codes fs)
    (h' : Coded codes fs') : Coded codes (if p then fs else fs') := by
  split_ifs
  · exact h
  · exact h'

theorem mono (h : Coded codes fs) (all : ∀ c ∈ codes, c ∈ wanted) : Coded wanted fs :=
  fun f hf => all _ (h f hf)

theorem filter_eq_self (h : Coded codes fs) (all : ∀ c ∈ codes, c ∈ wanted) :
    fs.filter (·.code ∈ wanted) = fs :=
  List.filter_eq_self.mpr fun f hf => decide_eq_true (h.mono all f hf)

theorem filter_eq_nil (h : Coded codes fs) (none : ∀ c ∈ codes, c ∉ wanted) :
    fs.filter (·.code ∈ wanted) = [] :=
  List.filter_eq_nil_iff.mpr fun f hf => by simpa using none _ (h f hf)

end Coded

def errorCodes : List Code := [⟨100⟩, ⟨101⟩, ⟨102⟩, ⟨200⟩, ⟨201⟩, ⟨300⟩, ⟨301⟩, ⟨302⟩]

def isError (f : Finding) : Bool := f.severity = .error

def warningCodes : List Code := [⟨103⟩, ⟨303⟩, ⟨400⟩, ⟨401⟩, ⟨402⟩, ⟨403⟩, ⟨404⟩]

theorem isError_eq (f : Finding) : f.isError = decide (f.code ∈ errorCodes) := by
  cases f <;> simp [isError, severity, errorCodes, code]

theorem isWarning_eq (f : Finding) :
    decide (f.severity = .warning) = decide (f.code ∈ warningCodes) := by
  cases f <;> simp [severity, warningCodes, code]

theorem filter_isError (fs : List Finding) :
    fs.filter isError = fs.filter (·.code ∈ errorCodes) :=
  List.filter_congr fun f _ => f.isError_eq

end Finding

namespace Survey
open Finding
variable (s : Survey)

theorem entryAndExit_coded : Coded [⟨100⟩, ⟨101⟩, ⟨102⟩] s.entryAndExit := by
  refine Coded.append ?entries ?exits
  case entries => exact .ite (.singleton (by simp [code])) (.ite (.singleton (by simp [code])) (.nil _))
  case exits => exact .ite (.singleton (by simp [code])) (.nil _)

theorem danglingEnds_coded (e : Edge) : Coded [⟨200⟩, ⟨201⟩] (s.danglingEnds e) := by
  refine Coded.append ?source ?target
  case source => exact .ite (.nil _) (.singleton (by simp [code]))
  case target => exact .ite (.nil _) (.singleton (by simp [code]))

theorem deadEntry_coded : Coded [⟨300⟩] s.deadEntry := by
  unfold deadEntry
  cases s.graph.entryNode? with
  | none => exact .nil _
  | some e => exact .ite (.singleton (by simp [code])) (.nil _)

theorem deadExits_coded : Coded [⟨301⟩] s.deadExits := .ite (.nil _) (.singleton (by simp [code]))

theorem loose_coded (n : Node) : Coded [⟨302⟩] (s.loose n) := .ite (.nil _) (.singleton (by simp [code]))

theorem duplicates_coded : Coded [⟨103⟩] s.duplicates := by
  intro f hf
  obtain ⟨n, -, rfl⟩ := List.mem_map.mp hf
  simp [code]

theorem incomplete_coded (n : Node) :
    Coded [⟨400⟩, ⟨401⟩, ⟨402⟩, ⟨403⟩, ⟨404⟩] (s.incomplete n) := by
  unfold incomplete
  split
  · exact .nil _
  · exact .nil _
  · exact .singleton (by simp [code])
  · exact .ite (.nil _) (.singleton (by simp [code]))
  · refine Coded.append ?predicate ?branches
    case predicate => exact .ite (.nil _) (.singleton (by simp [code]))
    case branches => exact .ite (.singleton (by simp [code])) (.nil _)
  · exact .ite (.singleton (by simp [code])) (.nil _)

theorem outOfReach_coded : Coded [⟨303⟩] s.outOfReach := by
  unfold outOfReach
  cases s.graph.entryNode? with
  | none => exact .nil _
  | some e =>
    intro f hf
    obtain ⟨n, -, rfl⟩ := List.mem_map.mp hf
    simp [code]

def structural : List Finding :=
  s.entryAndExit ++ s.graph.edges.flatMap s.danglingEnds ++ s.deadEntry ++ s.deadExits ++
    s.graph.nodes.flatMap s.loose

def advisory : List Finding :=
  s.duplicates ++ s.graph.nodes.flatMap s.incomplete ++ s.outOfReach

theorem findings_eq : s.findings = s.structural ++ s.advisory := by
  simp only [findings, structural, advisory, List.append_assoc]

theorem structural_coded : Finding.Coded Finding.errorCodes s.structural := by
  refine .append (.append (.append (.append ?_ ?_) ?_) ?_) ?_
  · exact s.entryAndExit_coded.mono (by decide)
  · exact .flatMap (fun e => (s.danglingEnds_coded e).mono (by decide)) _
  · exact s.deadEntry_coded.mono (by decide)
  · exact s.deadExits_coded.mono (by decide)
  · exact .flatMap (fun n => (s.loose_coded n).mono (by decide)) _

theorem advisory_coded : Finding.Coded Finding.warningCodes s.advisory := by
  refine .append (.append ?_ ?_) ?_
  · exact s.duplicates_coded.mono (by decide)
  · exact .flatMap (fun n => (s.incomplete_coded n).mono (by decide)) _
  · exact s.outOfReach_coded.mono (by decide)

theorem filter_findings : s.findings.filter Finding.isError = s.structural := by
  rw [Finding.filter_isError, findings_eq, List.filter_append,
    s.structural_coded.filter_eq_self fun _ h => h, s.advisory_coded.filter_eq_nil (by decide),
    List.append_nil]

theorem filter_findings_warning :
    s.findings.filter (·.severity = .warning) = s.advisory := by
  rw [List.filter_congr fun f _ => f.isWarning_eq, findings_eq, List.filter_append,
    s.structural_coded.filter_eq_nil (by decide), s.advisory_coded.filter_eq_self fun _ h => h,
    List.nil_append]

end Survey

namespace Graph
variable (g : Graph)

theorem errors_diagnose :
    g.diagnose.errors = (Survey.ofGraph g).structural.map Finding.diagnostic := by
  rw [diagnose, validateInto, Diagnostics.errors_pushAll, List.filter_map]
  exact congrArg (List.map _) (Survey.ofGraph g).filter_findings

theorem warnings_diagnose :
    g.diagnose.warnings = (Survey.ofGraph g).advisory.map Finding.diagnostic := by
  rw [diagnose, validateInto, Diagnostics.warnings_pushAll, List.filter_map]
  exact congrArg (List.map _) (Survey.ofGraph g).filter_findings_warning

end Graph
end Flowgraph
