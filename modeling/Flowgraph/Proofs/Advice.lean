import Flowgraph.Advice
/-!
# What advice reports

A check shows the code of each piece of advice and no other. Whether the start and the goal are open
is advised on for the level alone, whatever the graph.
-/
namespace Flowgraph
namespace Diagnostics
variable {ds : Diagnostics} {c : Code}

theorem hasCode_push (ds : Diagnostics) (d : Diagnostic) (c : Code) :
    (ds.push d).hasCode c = true ↔ ds.hasCode c = true ∨ d.code = c := by
  cases hs : d.severity <;> simp [push, hasCode, hs, or_comm, or_left_comm]

theorem hasCode_pushAll (ds : Diagnostics) (found : List Diagnostic) (c : Code) :
    (ds.pushAll found).hasCode c = true ↔ ds.hasCode c = true ∨ ∃ d ∈ found, d.code = c := by
  induction found generalizing ds with
  | nil => simp [pushAll]
  | cons d found ih =>
    rw [pushAll, List.foldl_cons, ← pushAll, ih, hasCode_push]
    simp [or_assoc]

end Diagnostics

namespace Level
variable {l : Level} {g : Graph} {c : Code} {a : Advice}

theorem hasCode_check :
    (l.check g).hasCode c = true ↔ ∃ a ∈ l.advice g, a.code = c := by
  rw [check, Diagnostics.hasCode_pushAll]
  constructor
  · rintro (h | ⟨d, hd, hc⟩)
    · cases h
    · obtain ⟨a, ha, rfl⟩ := List.mem_map.mp hd
      exact ⟨a, ha, hc⟩
  · rintro ⟨a, ha, hc⟩
    exact Or.inr ⟨_, List.mem_map_of_mem ha, hc⟩

theorem code_of_mem_onRequired {used : List Action} {word : String}
    (h : a ∈ Advice.onRequired used word) : a.code = ⟨500⟩ ∨ a.code = ⟨501⟩ := by
  unfold Advice.onRequired at h
  split at h
  · obtain rfl := List.mem_singleton.mp h
    exact Or.inr rfl
  · split at h
    · cases h
    · obtain rfl := List.mem_singleton.mp h
      exact Or.inl rfl

theorem mem_advice :
    a ∈ l.advice g ↔
      (∃ word ∈ l.requiredActions.getD [], a ∈ Advice.onRequired g.usedActions word) ∨
        a = .startNotOpen ∧ l.grid.isOpen l.startPosition = false ∨
        a = .goalNotOpen ∧ l.grid.isOpen l.goalPosition = false := by
  unfold advice
  cases l.grid.isOpen l.startPosition <;> cases l.grid.isOpen l.goalPosition <;> simp

theorem hasCode_check_of_place (h₀ : c ≠ ⟨500⟩) (h₁ : c ≠ ⟨501⟩) :
    (l.check g).hasCode c = true ↔
      c = ⟨502⟩ ∧ l.grid.isOpen l.startPosition = false ∨
        c = ⟨503⟩ ∧ l.grid.isOpen l.goalPosition = false := by
  rw [hasCode_check]
  constructor
  · rintro ⟨a, ha, rfl⟩
    rcases mem_advice.mp ha with ⟨word, -, hw⟩ | ⟨rfl, hs⟩ | ⟨rfl, hg⟩
    · rcases code_of_mem_onRequired hw with hr | hr
      · exact absurd hr h₀
      · exact absurd hr h₁
    · exact Or.inl ⟨rfl, hs⟩
    · exact Or.inr ⟨rfl, hg⟩
  · rintro (⟨rfl, hs⟩ | ⟨rfl, hg⟩)
    · exact ⟨_, mem_advice.mpr (Or.inr (Or.inl ⟨rfl, hs⟩)), rfl⟩
    · exact ⟨_, mem_advice.mpr (Or.inr (Or.inr ⟨rfl, hg⟩)), rfl⟩

theorem hasCode_startNotOpen :
    (l.check g).hasCode ⟨502⟩ = true ↔ l.grid.isOpen l.startPosition = false := by
  rw [hasCode_check_of_place (by decide) (by decide)]
  simp

theorem hasCode_goalNotOpen :
    (l.check g).hasCode ⟨503⟩ = true ↔ l.grid.isOpen l.goalPosition = false := by
  rw [hasCode_check_of_place (by decide) (by decide)]
  simp

end Level
end Flowgraph
