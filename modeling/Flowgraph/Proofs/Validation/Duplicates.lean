import Flowgraph.Proofs.Validation.Survey
import Mathlib.Tactic.SplitIfs
/-!
# Second declarations

The scan for duplicate ids keeps the ids that it has seen and those that it has reported. It finds the
declarations with exactly one of the same id before them, so that each id that is declared more than
once is found once.
-/
namespace Flowgraph

/-- How many of the nodes go by an id. -/
def Node.declarations (ns : List Node) (id : String) : Nat := ns.countP (·.id = id)

/-- The declarations that have exactly one of the same id before them. -/
def Graph.secondDeclarations (g : Graph) : List Node :=
  (g.nodes.zipIdx.filter fun p => Node.declarations (g.nodes.take p.2) p.1.id = 1).map (·.1)

namespace Survey
open Node
variable {before ns : List Node} {n : Node} {id : String} {seen reported : Std.TreeSet String}

theorem declarations_cons (n : Node) (ns : List Node) (id : String) :
    declarations (n :: ns) id = (if n.id = id then 1 else 0) + declarations ns id := by
  simp [declarations, List.countP_cons, Nat.add_comm]

theorem declarations_concat (before : List Node) (n : Node) (id : String) :
    declarations (before ++ [n]) id = declarations before id + if n.id = id then 1 else 0 := by
  simp [declarations, List.countP_append, List.countP_cons]

theorem one_le_declarations_concat (before : List Node) (n : Node) (id : String) :
    1 ≤ declarations (before ++ [n]) id ↔ n.id = id ∨ 1 ≤ declarations before id := by
  rw [declarations_concat]
  by_cases hid : n.id = id
  · simp [hid]
  · simp [hid]

theorem two_le_declarations_concat (before : List Node) (n : Node) (id : String) :
    2 ≤ declarations (before ++ [n]) id ↔
      n.id = id ∧ 1 ≤ declarations before id ∨ 2 ≤ declarations before id := by
  rw [declarations_concat]
  by_cases hid : n.id = id
  · simp only [hid, if_true, true_and]
    omega
  · simp [hid]

theorem contains_insert_iff (s : Std.TreeSet String) (a id : String) :
    (s.insert a).contains id = true ↔ a = id ∨ s.contains id = true := by
  rw [Std.TreeSet.contains_insert]
  simp

/-- The sets that a scan keeps, after the nodes before. -/
structure Scanned (before : List Node) (seen reported : Std.TreeSet String) : Prop where
  seen : ∀ id, seen.contains id = true ↔ 1 ≤ declarations before id
  reported : ∀ id, reported.contains id = true ↔ 2 ≤ declarations before id

theorem scanned_nil : Scanned [] ∅ ∅ where
  seen id := by simp [declarations]
  reported id := by simp [declarations]

namespace Scanned

theorem first (h : Scanned before seen reported) (hs : ¬seen.contains n.id = true) :
    Scanned (before ++ [n]) (seen.insert n.id) reported := by
  rw [h.seen] at hs
  constructor
  · intro id
    rw [contains_insert_iff, h.seen, one_le_declarations_concat]
  · intro id
    rw [h.reported, two_le_declarations_concat]
    constructor
    · exact Or.inr
    · rintro (⟨rfl, hone⟩ | htwo)
      · exact absurd hone hs
      · exact htwo

theorem second (h : Scanned before seen reported) (hs : seen.contains n.id = true) :
    Scanned (before ++ [n]) seen (reported.insert n.id) := by
  rw [h.seen] at hs
  constructor
  · intro id
    rw [h.seen, one_le_declarations_concat]
    constructor
    · exact Or.inr
    · rintro (rfl | hone)
      · exact hs
      · exact hone
  · intro id
    rw [contains_insert_iff, h.reported, two_le_declarations_concat]
    constructor
    · rintro (rfl | htwo)
      · exact Or.inl ⟨rfl, hs⟩
      · exact Or.inr htwo
    · rintro (⟨rfl, -⟩ | htwo)
      · exact Or.inl rfl
      · exact Or.inr htwo

theorem later (h : Scanned before seen reported) (hr : reported.contains n.id = true) :
    Scanned (before ++ [n]) seen reported := by
  rw [h.reported] at hr
  constructor
  · intro id
    rw [h.seen, one_le_declarations_concat]
    constructor
    · exact Or.inr
    · rintro (rfl | hone)
      · omega
      · exact hone
  · intro id
    rw [h.reported, two_le_declarations_concat]
    constructor
    · exact Or.inr
    · rintro (⟨rfl, -⟩ | htwo)
      · exact hr
      · exact htwo

theorem cons (h : Scanned before seen reported) (n : Node) (ns : List Node) :
    ∃ seen' reported', Scanned (before ++ [n]) seen' reported' ∧
      secondDeclarations seen reported (n :: ns) =
        (if declarations before n.id = 1 then [n] else []) ++
          secondDeclarations seen' reported' ns := by
  have hseen := h.seen n.id
  have hreported := h.reported n.id
  rw [secondDeclarations]
  by_cases hs : seen.contains n.id = true
  · rw [if_pos hs]
    by_cases hr : reported.contains n.id = true
    · have hmore : ¬declarations before n.id = 1 := by
        have := hreported.mp hr
        omega
      rw [if_pos hr, if_neg hmore]
      exact ⟨seen, reported, h.later hr, rfl⟩
    · have hone : declarations before n.id = 1 := by
        have := hseen.mp hs
        have := mt hreported.mpr hr
        omega
      rw [if_neg hr, if_pos hone]
      exact ⟨seen, reported.insert n.id, h.second hs, rfl⟩
  · have hnone : ¬declarations before n.id = 1 := by
      have := mt hseen.mpr hs
      omega
    rw [if_neg hs, if_neg hnone]
    exact ⟨seen.insert n.id, reported, h.first hs, rfl⟩

theorem secondDeclarations_eq (h : Scanned before seen reported) (ns : List Node) :
    secondDeclarations seen reported ns =
      ((ns.zipIdx before.length).filter fun p =>
        declarations ((before ++ ns).take p.2) p.1.id = 1).map (·.1) := by
  induction ns generalizing before seen reported with
  | nil => rfl
  | cons n ns ih =>
    obtain ⟨seen', reported', h', hcons⟩ := h.cons n ns
    have hlength : (before ++ [n]).length = before.length + 1 := by simp
    have hall : before ++ n :: ns = before ++ [n] ++ ns := by simp
    rw [hcons, ih h', hlength, ← hall, List.zipIdx_cons, List.filter_cons, List.take_left]
    by_cases hone : declarations before n.id = 1
    · rw [if_pos hone, if_pos (decide_eq_true hone)]
      rfl
    · rw [if_neg hone, if_neg (by simpa using hone)]
      rfl

theorem count_secondDeclarations (h : Scanned before seen reported) (ns : List Node)
    (id : String) :
    ((secondDeclarations seen reported ns).map (·.id)).count id =
      if declarations before id ≤ 1 ∧ 2 ≤ declarations before id + declarations ns id
      then 1 else 0 := by
  induction ns generalizing before seen reported with
  | nil =>
    rw [if_neg (by simp only [declarations, List.countP_nil]; omega)]
    rfl
  | cons n ns ih =>
    obtain ⟨seen', reported', h', hcons⟩ := h.cons n ns
    rw [hcons, List.map_append, List.count_append, ih h', declarations_concat,
      declarations_cons]
    by_cases hid : n.id = id
    · subst hid
      by_cases hone : declarations before n.id = 1
      · simp only [hone, if_true, List.map_cons, List.map_nil, List.count_singleton_self]
        split_ifs <;> omega
      · simp only [if_neg hone, List.map_nil, List.count_nil, if_true]
        split_ifs <;> omega
    · have hhead : ((if declarations before n.id = 1 then [n] else []).map (·.id)).count id = 0 := by
        split_ifs
        · simp [hid]
        · rfl
      rw [hhead, if_neg hid]
      simp

end Scanned

end Survey

namespace Graph
variable (g : Graph)

theorem secondDeclarations_ofGraph :
    Survey.secondDeclarations ∅ ∅ g.nodes = g.secondDeclarations :=
  Survey.scanned_nil.secondDeclarations_eq g.nodes

theorem count_secondDeclarations (id : String) :
    (g.secondDeclarations.map (·.id)).count id =
      if 2 ≤ Node.declarations g.nodes id then 1 else 0 := by
  have hnone : Node.declarations [] id = 0 := rfl
  rw [← secondDeclarations_ofGraph, Survey.scanned_nil.count_secondDeclarations, hnone]
  split_ifs <;> omega

end Graph
end Flowgraph
