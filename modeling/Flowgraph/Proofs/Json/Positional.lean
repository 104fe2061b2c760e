import Flowgraph.Proofs.Json.Record
/-!
# Records given by position

An array gives the fields of a record in their order, and an object gives them under their names.
When the array reaches as far as the last required field and no further than the last one, both are
read alike: an item is read by the field that its name would go to, and what is left out has a value
of its own.
-/
namespace Flowgraph.Json

namespace Codec
variable {α β : Type} {c : Codec α} {names : List String} {least : Nat}

/-- Items are taken for the members with these names, in this order, as soon as there are at least so
many of them. What comes of them is the same, be it a value or a fault. -/
def TakesItems (c : Codec α) (names : List String) (least : Nat) : Prop :=
  ∀ ds text text', least ≤ ds.length → ds.length ≤ names.length →
    (Doc.list ds).SpeltAs text → (Doc.record (names.zip ds)).SpeltAs text' →
    c.parse text = c.parse text'

theorem takesItems_of_read (h : ∀ ds, least ≤ ds.length → ds.length ≤ names.length →
    c.read (.list ds) = c.read (.record (names.zip ds))) : c.TakesItems names least := by
  intro ds text text' hleast hmost htext htext'
  rw [parse_of_speltAs htext, parse_of_speltAs htext']
  exact h ds hleast hmost

theorem TakesItems.map (h : c.TakesItems names least) (make : α → β) (of : β → α) :
    (c.map make of).TakesItems names least := by
  intro ds text text' hleast hmost htext htext'
  have hc := h ds text text' hleast hmost htext htext'
  rw [parse_of_speltAs htext, parse_of_speltAs htext'] at hc ⊢
  exact congrArg (Except.map make) hc

end Codec

namespace Fields
variable {τ : List Type}

/-- The position of the last required field, counted from one. Zero if no field is required. -/
def least : {τ : List Type} → Fields τ → Nat
  | _, nil => 0
  | _, cons f rest => if f.absent.isNone ∨ rest.least ≠ 0 then rest.least + 1 else 0

theorem least_cons_le {α : Type} {f : Field α} {rest : Fields τ} {n : Nat}
    (h : (cons f rest).least ≤ n + 1) : rest.least ≤ n := by
  by_cases hrest : rest.least = 0
  · omega
  · rw [least, if_pos (.inr hrest)] at h
    exact Nat.le_of_succ_le_succ h

theorem least_cons_eq_zero {α : Type} {f : Field α} {rest : Fields τ}
    (h : (cons f rest).least = 0) : (∃ a, f.absent = some a) ∧ rest.least = 0 := by
  rw [least] at h
  split at h
  next => cases h
  next optional =>
    rw [not_or, Option.isNone_iff_eq_none] at optional
    exact ⟨Option.ne_none_iff_exists'.mp optional.1, not_not.mp optional.2⟩

theorem length_names : {τ : List Type} → (fs : Fields τ) → fs.names.length = fs.count
  | _, nil => rfl
  | _, cons _ rest => congrArg Nat.succ rest.length_names

theorem readItems_eq_readMembers (expected : String) : {τ : List Type} → (fs : Fields τ) →
    (index : Nat) → (ds : List Doc) → fs.Distinct → fs.least ≤ ds.length → ds.length ≤ fs.count →
    readItems expected fs index ds .closed =
      (fs.readMembers fs.blank (named (fs.names.zip ds))).bind fs.values
  | _, nil, _, [], _, _, _ => rfl
  | _, cons f rest, index, [], apart, hleast, _ => by
    obtain ⟨⟨a, ha⟩, hrest⟩ := least_cons_eq_zero (Nat.le_zero.mp hleast)
    have ih := rest.readItems_eq_readMembers expected (index + 1) [] apart.2 hrest.le (Nat.zero_le _)
    simp only [List.zip_nil_right, named_nil, readMembers, Except.bind] at ih ⊢
    rw [readItems, blank, values, Option.none_or, ha, ih]
  | _, cons f rest, index, d :: ds, apart, hleast, hmost => by
    obtain ⟨foreign, distinct⟩ := apart
    have ih := rest.readItems_eq_readMembers expected (index + 1) ds distinct (least_cons_le hleast)
      (Nat.le_of_succ_le_succ hmost)
    -- The field does not go by the names of the members that follow.
    have others : ∀ m ∈ rest.names.zip ds, f.goesBy m.1 = false := by
      intro m hm
      exact foreign m.1 (List.of_mem_zip hm).1
    rw [readItems_cons, names, List.zip_cons_cons, named_cons, readMembers, blank, place,
      if_pos f.goesBy_name]
    cases f.read d with
    | error fault => rfl
    | ok a =>
      simp only [Except.map, Except.bind]
      rw [readMembers_cons others, ih]
      cases rest.readMembers rest.blank (named (rest.names.zip ds)) <;> rfl

theorem codec_takesItems {fs : Fields τ} (distinct : fs.Distinct) (title : String) :
    (fs.codec title).TakesItems fs.names fs.least := by
  apply Codec.takesItems_of_read
  intro ds hleast hmost
  rw [length_names] at hmost
  calc (fs.codec title).read (.list ds)
    _ = (fs.readMembers fs.blank (named (fs.names.zip ds))).bind fs.values :=
      fs.readItems_eq_readMembers _ 0 ds distinct hleast hmost
    _ = (fs.codec title).read (.record (fs.names.zip ds)) := (read_object fs title _ .closed).symm

end Fields
end Flowgraph.Json
