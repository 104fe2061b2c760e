import Flowgraph.Loops
import Mathlib.Data.List.Dedup
import Mathlib.Data.List.Perm.Subperm
/-!
# Open loops, one for each id

The stack of open loops is searched by id and changed in the middle. As long as no id is on it twice,
each change concerns one loop only: what is found under any other id stays the same.
-/
namespace Flowgraph
namespace Loops

/-- No loop is open twice. -/
def Distinct (s : Loops) : Prop := (s.frames.map (·.loop)).Nodup

variable {s : Loops} {f : Frame} {id : String}

theorem loop_of_find? (h : s.find? id = some f) : f.loop = id :=
  beq_iff_eq.mp (List.find?_some (p := fun f : Frame => f.loop == id) h)

theorem mem_of_find? (h : s.find? id = some f) : f ∈ s.frames :=
  List.mem_of_find?_eq_some h

theorem find?_eq_none_iff : s.find? id = none ↔ id ∉ s.frames.map (·.loop) := by
  simp [find?, List.find?_eq_none]

theorem empty_distinct : Distinct {} := List.nodup_nil

theorem Distinct.find?_of_mem (h : s.Distinct) (hf : f ∈ s.frames) : s.find? f.loop = some f := by
  obtain ⟨f', hf'⟩ : ∃ f', s.find? f.loop = some f' := by
    rw [← Option.ne_none_iff_exists', ne_eq, find?_eq_none_iff, not_not]
    exact List.mem_map_of_mem hf
  rw [hf', List.inj_on_of_nodup_map h (mem_of_find? hf') hf (loop_of_find? hf')]

theorem Distinct.depth_le (h : s.Distinct) {ids : List String}
    (hs : ∀ f ∈ s.frames, f.loop ∈ ids) : s.depth ≤ ids.dedup.length := by
  have hsub : s.frames.map (·.loop) ⊆ ids.dedup := by
    intro id hid
    obtain ⟨f, hf, rfl⟩ := List.mem_map.mp hid
    exact List.mem_dedup.mpr (hs f hf)
  have hle := (List.subperm_of_subset h hsub).length_le
  rwa [List.length_map] at hle

theorem find?_cons (f : Frame) (fs : List Frame) (id : String) :
    find? ⟨f :: fs⟩ id = if f.loop = id then some f else find? ⟨fs⟩ id := by
  by_cases hf : f.loop = id
  · simp [find?, hf]
  · simp [find?, hf]

theorem remove_cons (f : Frame) (fs : List Frame) (id : String) :
    remove ⟨f :: fs⟩ id = if f.loop = id then ⟨fs⟩ else ⟨f :: (remove ⟨fs⟩ id).frames⟩ := by
  by_cases hf : f.loop = id
  · simp [remove, hf]
  · simp [remove, hf]

theorem setRound_cons (f : Frame) (fs : List Frame) (id : String) (round : Nat) :
    setRound ⟨f :: fs⟩ id round =
      if f.loop = id then ⟨{ f with round := round } :: fs⟩
      else ⟨f :: (setRound ⟨fs⟩ id round).frames⟩ := by
  by_cases hf : f.loop = id
  · simp [setRound, List.findIdx_cons, hf]
  · have hne : (f.loop == id) = false := beq_eq_false_iff_ne.mpr hf
    simp [setRound, List.findIdx_cons, hf, hne]

theorem find?_push (s : Loops) (f : Frame) (id : String) :
    (s.push f).find? id = (s.find? id).or (if f.loop = id then some f else none) := by
  by_cases hf : f.loop = id
  · simp [push, find?, hf]
  · simp [push, find?, hf]

theorem Distinct.push (h : s.Distinct) (hf : s.find? f.loop = none) : (s.push f).Distinct := by
  rw [find?_eq_none_iff] at hf
  have hd := List.Nodup.concat hf h
  rwa [List.concat_eq_append, ← List.map_singleton, ← List.map_append] at hd

theorem Distinct.remove (h : s.Distinct) (id : String) : (s.remove id).Distinct :=
  h.sublist (List.Sublist.map _ List.eraseP_sublist)

theorem Distinct.find?_remove (h : s.Distinct) (id id' : String) :
    (s.remove id).find? id' = if id' = id then none else s.find? id' := by
  obtain ⟨fs⟩ := s
  induction fs with
  | nil => simp [Loops.remove, Loops.find?]
  | cons f fs ih =>
    obtain ⟨hf, hfs⟩ := List.nodup_cons.mp h
    rw [remove_cons, find?_cons]
    by_cases hid : f.loop = id
    · rw [if_pos hid]
      by_cases hid' : id' = id
      · rw [if_pos hid', find?_eq_none_iff, hid', ← hid]
        exact hf
      · rw [if_neg hid', if_neg (fun he => hid' (he.symm.trans hid))]
    · rw [if_neg hid, find?_cons, ih hfs]
      by_cases hid' : f.loop = id'
      · rw [if_pos hid', if_neg (fun he => hid (hid'.trans he)), if_pos hid']
      · rw [if_neg hid', if_neg hid']

theorem find?_setRound (s : Loops) (id : String) (round : Nat) (id' : String) :
    (s.setRound id round).find? id' =
      if id' = id then (s.find? id).map fun f => { f with round := round } else s.find? id' := by
  obtain ⟨fs⟩ := s
  induction fs with
  | nil => simp [Loops.setRound, Loops.find?]
  | cons f fs ih =>
    rw [setRound_cons, find?_cons, find?_cons]
    by_cases hid : f.loop = id
    · rw [if_pos hid, if_pos hid, find?_cons]
      by_cases hid' : id' = id
      · rw [if_pos hid', if_pos (hid.trans hid'.symm)]
        rfl
      · have hne : f.loop ≠ id' := fun he => hid' (he.symm.trans hid)
        rw [if_neg hid', if_neg hne, if_neg hne]
    · rw [if_neg hid, if_neg hid, find?_cons, ih]
      by_cases hid' : f.loop = id'
      · rw [if_pos hid', if_pos hid', if_neg (fun he => hid (hid'.trans he))]
      · rw [if_neg hid', if_neg hid']

theorem map_loop_setRound (s : Loops) (id : String) (round : Nat) :
    (s.setRound id round).frames.map (·.loop) = s.frames.map (·.loop) := by
  obtain ⟨fs⟩ := s
  induction fs with
  | nil => rfl
  | cons f fs ih =>
    rw [setRound_cons]
    by_cases hid : f.loop = id
    · rw [if_pos hid]
      rfl
    · rw [if_neg hid, List.map_cons, ih, List.map_cons]

theorem Distinct.setRound (h : s.Distinct) (id : String) (round : Nat) :
    (s.setRound id round).Distinct := by
  rw [Distinct, map_loop_setRound]
  exact h

/-- A change of the open loops that concerns one of them only. -/
structure Touches (s s' : Loops) (id : String) (frame : Option Frame) : Prop where
  distinct : s'.Distinct
  frame : s'.find? id = frame
  rest : ∀ id', id' ≠ id → s'.find? id' = s.find? id'

theorem Distinct.push_touches (h : s.Distinct) (hf : s.find? f.loop = none) :
    s.Touches (s.push f) f.loop (some f) := by
  constructor
  · exact h.push hf
  · rw [find?_push, hf, if_pos rfl, Option.none_or]
  · intro id hid
    rw [find?_push, if_neg (Ne.symm hid), Option.or_none]

theorem Distinct.remove_touches (h : s.Distinct) (id : String) :
    s.Touches (s.remove id) id none := by
  constructor
  · exact h.remove id
  · rw [h.find?_remove, if_pos rfl]
  · intro id' hid
    rw [h.find?_remove, if_neg hid]

theorem Distinct.setRound_touches (h : s.Distinct) (hf : s.find? id = some f) (round : Nat) :
    s.Touches (s.setRound id round) id (some { f with round := round }) := by
  constructor
  · exact h.setRound id round
  · rw [find?_setRound, if_pos rfl, hf, Option.map_some]
  · intro id' hid
    rw [find?_setRound, if_neg hid]

end Loops
end Flowgraph
