import Flowgraph.Proofs.Json.Member
import Flowgraph.Wire.Graph
/-!
# The sides of edges

Which side of a condition an edge is for is said by its branch. Older editors said it by the label of
the edge. A label says what the branch would have said, unless a branch says it already.
-/
namespace Flowgraph.Edge

open Json

def branchNames : List String := ["branch", "sourceHandle"]

inductive Sorted : List Member → List Doc → List Doc → List Member → Prop
  | nil : Sorted [] [] [] []
  | branch {n : String} {d : Doc} {ms : List Member} {branches labels : List Doc}
      {others : List Member} (hn : n ∈ branchNames) (h : Sorted ms branches labels others) :
      Sorted ((some n, d) :: ms) (d :: branches) labels others
  | label {d : Doc} {ms : List Member} {branches labels : List Doc} {others : List Member}
      (h : Sorted ms branches labels others) :
      Sorted ((some "label", d) :: ms) branches (d :: labels) others
  | other {m : Member} {ms : List Member} {branches labels : List Doc} {others : List Member}
      (hm : ∀ n ∈ m.1, n ∉ "label" :: branchNames) (h : Sorted ms branches labels others) :
      Sorted (m :: ms) branches labels (m :: others)

/-- What the branch of an edge with a label could as well have been. A branch that is known comes
before the label. -/
inductive Side (label : String) : List Doc → String → Prop
  | absent : Side label [] label
  | null : Side label [.null] label
  | unknown {w : String} (yes : w ≠ "true") (no : w ≠ "false") : Side label [.string w] label
  | known {w : String} (h : w = "true" ∨ w = "false") : Side label [.string w] w

/-- An edge with a label, and the same edge with a branch and no label. -/
inductive Relabelled : Doc → Doc → Prop
  | members {ms ms' others : List Member} {branches : List Doc} {ending : Ending}
      {label side : String} (hms : Sorted ms branches [.string label] others)
      (hside : Side label branches side) (hms' : Sorted ms' [.string side] [] others) :
      Relabelled (.object ms ending) (.object ms' ending)
  | items {id source target branch : Doc} {ending : Ending} {label side : String}
      (hside : Side label [branch] side) :
      Relabelled (.array [id, source, target, branch, .string label] ending)
        (.array [id, source, target, .string side] ending)

/-! The fields of an edge, with and without those that tell its side -/

def ends : Fields [String, String, String] :=
  .cons (.defaulted "id" .text "") <|
  .cons (.required "source" .text) <|
  .cons (.required "target" .text) .nil

def marks : Fields [Option String, Option String] :=
  .cons (.optional "branch" .text ["sourceHandle"]) <|
  .cons (Field.optional "label" .text).readOnly .nil

abbrev Mark := Option (Option String)

def withMarks (branch label : Mark) (slots : Slots [String, String, String]) :
    Slots [String, String, String, Option String, Option String] :=
  (slots.1, slots.2.1, slots.2.2.1, branch, label, ())

/-- What is known of a mark after the values that were given for it, one at most. -/
inductive Filled : Mark → List Doc → Mark → Prop
  | nothing (mark : Mark) : Filled mark [] mark
  | one {d : Doc} {o : Option String} (h : Codec.text.nullable.read d = .ok o) :
      Filled none [d] (some o)

section
variable {slots : Slots [String, String, String]} {branch label branch' label' : Mark} {n : String}
  {d : Doc} {o : Option String}

theorem place_branch (hn : n ∈ branchNames) (h : Codec.text.nullable.read d = .ok o) :
    fields.place (withMarks none label slots) n d = some (.ok (withMarks (some o) label slots)) := by
  simp only [branchNames, List.mem_cons, List.not_mem_nil, or_false] at hn
  rcases hn with rfl | rfl <;>
    simp [fields, withMarks, Fields.place, Field.goesBy, Field.optional, Field.defaulted,
      Field.required, h, Except.map]

theorem place_label (h : Codec.text.nullable.read d = .ok o) :
    fields.place (withMarks branch none slots) "label" d =
      some (.ok (withMarks branch (some o) slots)) := by
  simp [fields, withMarks, Fields.place, Field.goesBy, Field.optional, Field.defaulted,
    Field.required, Field.readOnly, h, Except.map]

theorem place_other (hn : n ∉ "label" :: branchNames) :
    fields.place (withMarks branch label slots) n d =
      (ends.place slots n d).map fun r => r.map (withMarks branch label) := by
  have hmarks (slots : Slots []) : marks.place (branch, label, slots) n d =
      (Fields.nil.place slots n d).map fun r => r.map fun slots => (branch, label, slots) := by
    simp only [branchNames, List.mem_cons, List.not_mem_nil, or_false, not_or] at hn
    simp [marks, Fields.place, Field.goesBy, Field.optional, Field.readOnly, hn]
  exact Fields.place_behind (Fields.place_behind (Fields.place_behind hmarks _) _) _ slots

/-- The marks are read without a fault, so any fault is met in the other members, wherever the marks
stand among them. -/
theorem readMembers_sorted {ms : List Member} {branches labels : List Doc} {others : List Member}
    (h : Sorted ms branches labels others) (hbranch : Filled branch branches branch')
    (hlabel : Filled label labels label') (slots : Slots [String, String, String]) :
    fields.readMembers (withMarks branch label slots) ms =
      (ends.readMembers slots others).map (withMarks branch' label') := by
  induction h generalizing slots branch label with
  | nil =>
    cases hbranch
    cases hlabel
    rfl
  | branch hn _ ih =>
    cases hbranch with
    | one h =>
      rw [Fields.readMembers, place_branch hn h]
      exact ih (.nothing _) hlabel slots
  | label _ ih =>
    cases hlabel with
    | one h =>
      rw [Fields.readMembers, place_label h]
      exact ih hbranch (.nothing _) slots
  | @other m _ _ _ _ hm _ ih =>
    obtain ⟨_ | n, d⟩ := m
    · rfl
    · rw [Fields.readMembers, Fields.readMembers, place_other (hm n rfl)]
      rcases ends.place slots n d with - | (fault | after)
      · simp only [Option.map_none]
        split
        · exact ih hbranch hlabel slots
        · rfl
      · rfl
      · exact ih hbranch hlabel after

theorem values_withMarks : fields.values (withMarks branch label slots) =
    (ends.values slots).map fun (id, source, target, ()) =>
      (id, source, target, branch.getD none, label.getD none, ()) := by
  obtain ⟨id, source, target, ⟨⟩⟩ := slots
  rcases id with - | id <;> rcases source with - | source <;> rcases target with - | target <;>
    rcases branch with - | branch <;> rcases label with - | label <;> rfl

end

def readEnds (side : Option Bool) (others : List Member) (ending : Ending) : Except Fault Edge :=
  (ends.readMembers ends.blank others).bind fun slots =>
    if ending = .closed then
      (ends.values slots).map fun (id, source, target, ()) => ⟨id, source, target, side⟩
    else .error .malformed

theorem read_sorted {ms : List Member} {branches labels : List Doc} {others : List Member}
    {branch label : Mark} (h : Sorted ms branches labels others)
    (hbranch : Filled none branches branch) (hlabel : Filled none labels label) (ending : Ending) :
    codec.read (.object ms ending) =
      readEnds (branchOf (branch.getD none) (label.getD none)) others ending := by
  have hms : fields.readMembers fields.blank ms =
      (ends.readMembers ends.blank others).map (withMarks branch label) :=
    readMembers_sorted h hbranch hlabel ends.blank
  rw [codec, Codec.map, readEnds]
  simp only [Fields.read_object, hms]
  rcases ends.readMembers ends.blank others with fault | slots
  · rfl
  · cases ending with
    | cut => rfl
    | closed =>
      simp only [Except.map, Except.bind, if_true, values_withMarks]
      rcases ends.values slots with fault | ⟨id, source, target, ⟨⟩⟩ <;> rfl

theorem Side.branchOf_eq {label side : String} {branches : List Doc}
    (h : Side label branches side) : ∃ mark, Filled none branches mark ∧
      branchOf (mark.getD none) (some label) = branchOf (some side) none := by
  cases h with
  | absent => exact ⟨none, .nothing none, by simp [branchOf]⟩
  | null => exact ⟨some none, .one rfl, by simp [branchOf]⟩
  | @unknown w yes no =>
    have hw : (Vocabulary.ofName? w : Option Bool) = none := by
      simp [Vocabulary.ofName?, Vocabulary.words, List.lookup_cons, List.lookup_nil,
        beq_false_of_ne yes, beq_false_of_ne no]
    exact ⟨some (some w), .one rfl, by simp [branchOf, hw]⟩
  | known h =>
    refine ⟨some (some side), .one rfl, ?_⟩
    rcases h with rfl | rfl <;> rfl

theorem Relabelled.read_eq {d d' : Doc} (h : Relabelled d d') : codec.read d = codec.read d' := by
  cases h with
  | members hms hside hms' =>
    obtain ⟨branch, hbranch, hsame⟩ := hside.branchOf_eq
    rw [read_sorted hms hbranch (.one rfl), read_sorted hms' (.one rfl) (.nothing none)]
    exact congrArg (readEnds · _ _) hsame
  | @items id source target branch ending label side hside =>
    obtain ⟨mark, hmark, hsame⟩ := hside.branchOf_eq
    cases hmark with
    | one hbranch =>
      have hlabel (s : String) : Codec.text.nullable.read (.string s) = .ok (some s) := rfl
      simp only [codec, Codec.map, Fields.codec, fields, Fields.readItems, Field.optional,
        Field.defaulted, Field.required, Field.readOnly, hbranch, hlabel]
      rcases Codec.text.read id with fault | id
      · rfl
      rcases Codec.text.read source with fault | source
      · rfl
      rcases Codec.text.read target with fault | target
      · rfl
      cases ending with
      | cut => rfl
      | closed =>
        have hedge := congrArg (fun side => (⟨id, source, target, side⟩ : Edge)) hsame
        exact congrArg Except.ok hedge

end Flowgraph.Edge
