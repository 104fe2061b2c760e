import Flowgraph.Proofs.Advice
import Flowgraph.Proofs.Diagnostics
import Flowgraph.Proofs.Run.Replay
/-!
# The advice on a graph and a level

`Level.adviceReport` tells the advice by plain scans: of the actions, for each word that the level
requires, and of the grid, for the start and the goal. A check gives this advice and no other, in this
order, and all of it as warnings. Whoever saw a run perform an action is not told that it is not used.
-/
namespace Flowgraph
namespace Graph
variable {g : Graph} {a : Action}

def Carries (g : Graph) (a : Action) : Prop := ∃ n ∈ g.nodes, n.kind = .action (some (.known a))

instance (g : Graph) (a : Action) : Decidable (g.Carries a) :=
  inferInstanceAs (Decidable (∃ n ∈ g.nodes, n.kind = .action (some (.known a))))

theorem mem_usedActions : a ∈ g.usedActions ↔ g.Carries a := by
  have hnode (n : Node) :
      n.action?.bind Key.value? = some a ↔ n.kind = .action (some (.known a)) := by
    obtain ⟨id, kind, label⟩ := n
    cases kind with
    | action key =>
      rcases key with - | (known | unknown)
      · simp [Node.action?]
      · simp [Node.action?, Key.value?]
      · simp [Node.action?, Key.value?]
    | _ => simp [Node.action?]
  simp only [usedActions, List.mem_filterMap, hnode, Carries]

end Graph

namespace Level
variable (l : Level) (g : Graph)

def unusedWarning (a : Action) : Diagnostic :=
  .warning ⟨500⟩ s!"Level \"{l.name}\" expects the '{Vocabulary.name a}' action"

def unknownWarning (word : String) : Diagnostic :=
  .warning ⟨501⟩ s!"Level \"{l.name}\" requires an unknown action kind '{word}'"

/-- A required word should be the name of an action that some node carries. -/
def requiredWarnings (word : String) : List Diagnostic :=
  match Action.all.find? fun a => Vocabulary.name a = word with
  | none => [l.unknownWarning word]
  | some a => if g.Carries a then [] else [l.unusedWarning a]

def placeWarnings (code : Code) (what : String) (p : Position) : List Diagnostic :=
  if l.grid.isOpen p = true then []
  else [.warning code s!"{what} position ({p.x.val}, {p.y.val}) is off the grid or on a wall"]

def adviceReport : List Diagnostic :=
  (l.requiredActions.getD []).flatMap (l.requiredWarnings g) ++
    l.placeWarnings ⟨502⟩ "Start" l.startPosition ++
    l.placeWarnings ⟨503⟩ "Goal" l.goalPosition

end Level

theorem Action.ofName?_eq_find? (word : String) :
    (Vocabulary.ofName? word : Option Action) =
      Action.all.find? fun a => Vocabulary.name a = word := by
  have hlookup (as : List Action) : (as.map fun a => (Vocabulary.name a, a)).lookup word =
      as.find? fun a => Vocabulary.name a = word := by
    induction as with
    | nil => rfl
    | cons a as ih =>
      rw [List.map_cons, List.lookup_cons, List.find?_cons, ih]
      by_cases h : Vocabulary.name a = word
      · simp [h]
      · simp [h, beq_false_of_ne (Ne.symm h)]
  exact hlookup Action.all

namespace Level
variable {l : Level} {g : Graph} {a : Action}

theorem errors_check (l : Level) (g : Graph) : (l.check g).errors = [] := by
  rw [check, Diagnostics.errors_pushAll, List.filter_map]
  simp [Function.comp_def, Advice.diagnostic, Diagnostic.warning]

theorem warnings_check (l : Level) (g : Graph) :
    (l.check g).warnings = (l.advice g).map (·.diagnostic l) := by
  rw [check, Diagnostics.warnings_pushAll, List.filter_map]
  simp [Function.comp_def, Advice.diagnostic, Diagnostic.warning]

theorem message_unknownRequiredAction (l : Level) (word : String) :
    (Advice.unknownRequiredAction word).message l =
      s!"Level \"{l.name}\" requires an unknown action kind '{word}'" := by
  have joined : "\" requires an unknown action kind '" =
      "\" requires an " ++ "unknown action kind '" := by decide +kernel
  calc (Advice.unknownRequiredAction word).message l
    _ = "Level \"" ++ l.name ++ "\" requires an " ++ ("unknown action kind '" ++ word ++ "'") := rfl
    _ = "Level \"" ++ l.name ++ ("\" requires an " ++ "unknown action kind '") ++ word ++ "'" := by
      simp only [String.append_assoc]
    _ = s!"Level \"{l.name}\" requires an unknown action kind '{word}'" := by
      rw [← joined]
      rfl

theorem map_onRequired (l : Level) (g : Graph) (word : String) :
    (Advice.onRequired g.usedActions word).map (·.diagnostic l) = l.requiredWarnings g word := by
  rw [Advice.onRequired, Action.ofName?_eq_find?, requiredWarnings]
  cases Action.all.find? fun a => Vocabulary.name a = word with
  | none =>
    rw [List.map_singleton, Advice.diagnostic, message_unknownRequiredAction]
    rfl
  | some a =>
    simp only [Graph.mem_usedActions]
    split_ifs
    · rfl
    · rfl

theorem map_advice (l : Level) (g : Graph) :
    (l.advice g).map (·.diagnostic l) = l.adviceReport g := by
  have hplace (p : Position) (a : Advice) :
      (if l.grid.isOpen p = true then [] else [a]).map (·.diagnostic l) =
        if l.grid.isOpen p = true then [] else [a.diagnostic l] := by
    split_ifs
    · rfl
    · rfl
  simp only [advice, adviceReport, List.map_append, List.map_flatMap, map_onRequired, hplace]
  rfl

theorem unusedWarning_injective {b : Action} (h : l.unusedWarning a = l.unusedWarning b) : a = b := by
  have hmessage := congrArg Diagnostic.message h
  simp only [unusedWarning, Diagnostic.warning, String.append_left_inj,
    String.append_right_inj] at hmessage
  exact Vocabulary.name_injective hmessage

theorem code_of_mem_placeWarnings {code : Code} {what : String} {p : Position} {d : Diagnostic}
    (h : d ∈ l.placeWarnings code what p) : d.code = code := by
  unfold placeWarnings at h
  split_ifs at h
  · cases h
  · obtain rfl := List.mem_singleton.mp h
    rfl

theorem requiredWarnings_name (l : Level) (g : Graph) (a : Action) :
    l.requiredWarnings g (Vocabulary.name a) = if g.Carries a then [] else [l.unusedWarning a] := by
  rw [requiredWarnings, ← Action.ofName?_eq_find?, Vocabulary.ofName?_name]

theorem mem_requiredWarnings {word : String} (h : l.unusedWarning a ∈ l.requiredWarnings g word) :
    Vocabulary.name a = word ∧ ¬g.Carries a := by
  unfold requiredWarnings at h
  split at h
  · have hcode := congrArg Diagnostic.code (List.mem_singleton.mp h)
    cases hcode
  · next b hb =>
    split_ifs at h with hc
    · cases h
    · obtain rfl := unusedWarning_injective (List.mem_singleton.mp h)
      exact ⟨by simpa using List.find?_some hb, hc⟩

theorem mem_adviceReport_iff : l.unusedWarning a ∈ l.adviceReport g ↔
    Vocabulary.name a ∈ l.requiredActions.getD [] ∧ ¬g.Carries a := by
  constructor
  · intro h
    rcases List.mem_append.mp h with h | h
    · rcases List.mem_append.mp h with h | h
      · obtain ⟨word, hword, h⟩ := List.mem_flatMap.mp h
        obtain ⟨rfl, hc⟩ := mem_requiredWarnings h
        exact ⟨hword, hc⟩
      · cases code_of_mem_placeWarnings h
    · cases code_of_mem_placeWarnings h
  · rintro ⟨hword, hc⟩
    have hmem : l.unusedWarning a ∈ l.requiredWarnings g (Vocabulary.name a) := by
      rw [requiredWarnings_name, if_neg hc]
      exact List.mem_singleton_self _
    exact List.mem_append_left _ (List.mem_append_left _ (List.mem_flatMap.mpr ⟨_, hword, hmem⟩))

/-- A check has no errors, and its warnings are the advice that scans of the graph and of the grid give,
in the order of the words. No action is missed that a run of the graph performs, on whatever level. -/
theorem advice_reported_exactly (l : Level) (g : Graph) :
    (l.check g).errors = [] ∧ (l.check g).warnings = l.adviceReport g ∧
      ∀ level ceiling, (g.run level ceiling).visited = (g.visits level ceiling).map (·.id) ∧
        ∀ n ∈ g.visits level ceiling, ∀ a, n.kind = .action (some (.known a)) →
          l.unusedWarning a ∉ (l.check g).warnings := by
  have hwarnings : (l.check g).warnings = l.adviceReport g :=
    (warnings_check l g).trans (map_advice l g)
  refine ⟨errors_check l g, hwarnings, ?_⟩
  intro level ceiling
  rw [Graph.visits_eq_trail]
  refine ⟨(Graph.run_trace g level ceiling).2, ?_⟩
  intro n hn a ha hmissed
  rw [hwarnings, mem_adviceReport_iff] at hmissed
  exact hmissed.2 ⟨n, Graph.mem_of_mem_trail hn, ha⟩

end Level

namespace Graph

def halfFinished : Graph where
  nodes := [{ id := "in", kind := .entry }, { id := "go", kind := .action (some (.known .move)) },
    { id := "hop", kind := .action (some (.ofWord "jump")) }, { id := "blank", kind := .action none }]
  edges := [⟨"1", "in", "go", none⟩, ⟨"2", "go", "hop", none⟩, ⟨"3", "hop", "blank", none⟩]

end Graph

namespace Level

/-- It asks for an action twice, and for one that there is not, and it starts on a wall. -/
def demanding : Level :=
  { Level.plain "demanding" (.ofRows ["#."]) ⟨0, 0⟩ .east ⟨.clamp 5, 0⟩ 9 with
    requiredActions := some ["wait", "jump", "move", "wait"] }

theorem halfFinished_advised :
    (demanding.check .halfFinished).warnings.map (fun d => (d.code.number, d.message)) =
        [(500, "Level \"demanding\" expects the 'wait' action"),
          (501, "Level \"demanding\" requires an unknown action kind 'jump'"),
          (500, "Level \"demanding\" expects the 'wait' action"),
          (502, "Start position (0, 0) is off the grid or on a wall"),
          (503, "Goal position (5, 0) is off the grid or on a wall")] ∧
      { id := "go", kind := .action (some (.known .move)) } ∈ Graph.halfFinished.visits demanding 2 ∧
      demanding.unusedWarning .move ∉ (demanding.check .halfFinished).warnings := by
  obtain ⟨-, hwarnings, hruns⟩ := advice_reported_exactly demanding .halfFinished
  have hvisit : { id := "go", kind := .action (some (.known .move)) } ∈
      Graph.halfFinished.visits demanding 2 := by
    rw [Graph.visits_eq_trail]
    decide
  refine ⟨?_, hvisit, (hruns demanding 2).2 _ hvisit .move rfl⟩
  rw [hwarnings]
  decide +kernel

end Level
end Flowgraph
