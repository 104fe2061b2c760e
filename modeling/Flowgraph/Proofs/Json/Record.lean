import Flowgraph.Json.Record
import Flowgraph.Proofs.Json.Codec
/-!
# What records give back

A record is given back field by field. A field that is not written stands for the value it has when
it is absent, and the fields are told apart by their names.
-/
namespace Flowgraph.Json

namespace Field
variable {α : Type}

/-- What is written of a value, be it nothing, stands for another. -/
def GivesBack (f : Field α) (a b : α) : Prop :=
  match f.write a with
  | some d => d.Writable ∧ f.read d = .ok b
  | none => f.absent = some b

/-- The value is read from some document, or it is the one of the absent field. -/
def Reads (f : Field α) (a : α) : Prop := (∃ d, f.read d = .ok a) ∨ f.absent = some a

variable {c : Codec α} {name : String} {aliases : List String} {a b : α}

theorem required_givesBack (h : c.GivesBack a b) : (required name c aliases).GivesBack a b :=
  ⟨h.writable, h.read⟩

theorem defaulted_givesBack {absent : α} (h : c.GivesBack a b) :
    (defaulted name c absent).GivesBack a b :=
  ⟨h.writable, h.read⟩

theorem optional_givesBack {o : Option α} (h : ∀ a ∈ o, c.GivesBack a a)
    (given : ∀ a ∈ o, c.write a ≠ .null) : (optional name c aliases).GivesBack o o := by
  cases o with
  | none => exact rfl
  | some a =>
    have ha : c.GivesBack a a := h a rfl
    have hnull : c.write a ≠ .null := given a rfl
    refine ⟨ha.writable, ?_⟩
    -- By `hnull`, the reader does not take what is written for nothing.
    simp only [optional, Codec.nullable]
    rw [ha.read]
    rfl

theorem optional_text_givesBack (o : Option String) :
    (optional name .text aliases).GivesBack o o := by
  apply optional_givesBack
  · intro s _
    exact Codec.text_givesBack s
  · exact nofun

theorem readOnly_givesBack {f : Field α} (h : f.absent = some b) : f.readOnly.GivesBack a b := h

theorem goesBy_name (f : Field α) : f.goesBy f.name = true := by
  simp [goesBy]

end Field

namespace Fields
variable {τ : List Type}

def names : {τ : List Type} → Fields τ → List String
  | _, nil => []
  | _, cons f rest => f.name :: rest.names

/-- No field goes by the name of a later one. -/
def Distinct : {τ : List Type} → Fields τ → Prop
  | _, nil => True
  | _, cons f rest => (∀ n ∈ rest.names, f.goesBy n = false) ∧ rest.Distinct

instance decidableDistinct : {τ : List Type} → (fs : Fields τ) → Decidable fs.Distinct
  | _, nil => isTrue trivial
  | _, cons f rest =>
    have := rest.decidableDistinct
    inferInstanceAs (Decidable ((∀ n ∈ rest.names, f.goesBy n = false) ∧ rest.Distinct))

def GivesBack : {τ : List Type} → Fields τ → Tuple τ → Tuple τ → Prop
  | _, nil, _, _ => True
  | _, cons f rest, (a, as), (b, bs) => f.GivesBack a b ∧ rest.GivesBack as bs

def Reads : {τ : List Type} → Fields τ → Tuple τ → Prop
  | _, nil, _ => True
  | _, cons f rest, (a, as) => f.Reads a ∧ rest.Reads as

theorem mem_names_of_mem_write : {τ : List Type} → (fs : Fields τ) → (as : Tuple τ) →
    ∀ m ∈ fs.write as, m.1 ∈ fs.names
  | _, nil, _ => List.forall_mem_nil _
  | _, cons f rest, (a, as) => by
    intro m hm
    have ih := rest.mem_names_of_mem_write as
    rw [write] at hm
    split at hm
    · rcases List.mem_cons.mp hm with rfl | hm
      · exact List.mem_cons_self
      · exact List.mem_cons_of_mem _ (ih m hm)
    · exact List.mem_cons_of_mem _ (ih m hm)

theorem writable_write : {τ : List Type} → {fs : Fields τ} → {as bs : Tuple τ} →
    fs.GivesBack as bs → ∀ m ∈ fs.write as, m.2.Writable
  | _, nil, _, _, _ => List.forall_mem_nil _
  | _, cons f rest, (a, as), (b, bs), given => by
    obtain ⟨h, hs⟩ := given
    have ih := writable_write hs
    rw [Field.GivesBack] at h
    rw [write]
    cases hd : f.write a with
    | none => exact ih
    | some d =>
      rw [hd] at h
      exact List.forall_mem_cons.mpr ⟨h.1, ih⟩

theorem place_of_foreign {α : Type} {f : Field α} {rest : Fields τ} {slot : Option α}
    {slots : Slots τ} {n : String} {d : Doc} (h : f.goesBy n = false) :
    (cons f rest).place (slot, slots) n d =
      (rest.place slots n d).map fun r => r.map (slot, ·) := by
  simp only [place, h, Bool.false_eq_true, if_false]

theorem place_eq_ok {α : Type} {f : Field α} {rest : Fields τ} {slot : Option α}
    {slots : Slots τ} {n : String} {d : Doc} {after : Slots (α :: τ)} :
    (cons f rest).place (slot, slots) n d = some (.ok after) ↔
      (f.goesBy n = true ∧ slot = none ∧ ∃ a, f.read d = .ok a ∧ after = (some a, slots)) ∨
      (f.goesBy n = false ∧ ∃ others, rest.place slots n d = some (.ok others) ∧
        after = (slot, others)) := by
  by_cases hn : f.goesBy n = true
  · simp only [place, hn, if_true, true_and, Bool.true_eq_false, false_and, or_false]
    cases slot with
    | some a => simp
    | none => cases f.read d <;> simp [Except.map, eq_comm]
  · rw [Bool.not_eq_true] at hn
    rw [place_of_foreign hn]
    rcases rest.place slots n d with - | (fault | others) <;> simp [hn, Except.map, eq_comm]

theorem readMembers_cons {α : Type} {f : Field α} {rest : Fields τ} {slot : Option α}
    {slots : Slots τ} {ms : List (String × Doc)} (h : ∀ m ∈ ms, f.goesBy m.1 = false) :
    (cons f rest).readMembers (slot, slots) (named ms) =
      (rest.readMembers slots (named ms)).map (slot, ·) := by
  induction ms generalizing slots with
  | nil => rfl
  | cons m ms ih =>
    have hms := fun slots => @ih slots fun e he => h e (by simp [he])
    rw [named_cons, readMembers, readMembers, place_of_foreign (h m (by simp))]
    cases hr : rest.place slots m.1 m.2 with
    | none =>
      simp only [Option.map_none]
      split
      · exact hms slots
      · rfl
    | some r =>
      cases r with
      | error e => rfl
      | ok slots' => exact hms slots'

theorem readMembers_write : {τ : List Type} → {fs : Fields τ} → {as bs : Tuple τ} →
    fs.Distinct → fs.GivesBack as bs →
    ∃ slots, fs.readMembers fs.blank (named (fs.write as)) = .ok slots ∧ fs.values slots = .ok bs
  | _, nil, _, _, _, _ => ⟨(), rfl, rfl⟩
  | _, cons f rest, (a, as), (b, bs), apart, given => by
    obtain ⟨foreign, distinct⟩ := apart
    obtain ⟨h, hs⟩ := given
    obtain ⟨slots, hread, hvalues⟩ := readMembers_write distinct hs
    have hforeign : ∀ m ∈ rest.write as, f.goesBy m.1 = false := by
      intro m hm
      exact foreign m.1 (rest.mem_names_of_mem_write as m hm)
    have others : ∀ slot, (cons f rest).readMembers (slot, rest.blank) (named (rest.write as)) =
        .ok (slot, slots) := by
      intro slot
      rw [readMembers_cons hforeign, hread]
      rfl
    rw [Field.GivesBack] at h
    rw [write, blank]
    cases hd : f.write a with
    | none =>
      rw [hd] at h
      refine ⟨(none, slots), others none, ?_⟩
      rw [values, Option.none_or, h]
      simp only [hvalues, Except.map]
    | some d =>
      rw [hd] at h
      refine ⟨(some b, slots), ?_, ?_⟩
      · rw [named_cons, readMembers, place, if_pos f.goesBy_name, h.2]
        exact others (some b)
      · rw [values, Option.some_or]
        simp only [hvalues, Except.map]

theorem read_object (fs : Fields τ) (title : String) (ms : List (Name × Doc)) (ending : Ending) :
    (fs.codec title).read (.object ms ending) = (fs.readMembers fs.blank ms).bind fun slots =>
      if ending = .closed then fs.values slots else .error .malformed := by
  simp only [codec]
  cases fs.readMembers fs.blank ms <;> rfl

theorem readItems_cons {α : Type} (expected : String) (f : Field α) (rest : Fields τ) (index : Nat)
    (d : Doc) (ds : List Doc) (ending : Ending) :
    readItems expected (cons f rest) index (d :: ds) ending = (f.read d).bind fun a =>
      (readItems expected rest (index + 1) ds ending).map fun b => (a, b) := by
  rw [readItems]
  cases f.read d <;> rfl

theorem codec_givesBack {fs : Fields τ} {title : String} {as bs : Tuple τ} (distinct : fs.Distinct)
    (h : fs.GivesBack as bs) : (fs.codec title).GivesBack as bs where
  writable := .record (writable_write h)
  read := by
    obtain ⟨slots, hread, hvalues⟩ := readMembers_write distinct h
    simp only [named] at hread
    simp only [codec, Doc.record, hread, hvalues, if_true]

theorem codec_write_ne_null {fs : Fields τ} (title : String) (as : Tuple τ) :
    (fs.codec title).write as ≠ .null := nofun

def Filled : {τ : List Type} → Fields τ → Slots τ → Prop
  | _, nil, _ => True
  | _, cons f rest, (slot, slots) => (∀ a ∈ slot, ∃ d, f.read d = .ok a) ∧ rest.Filled slots

theorem filled_blank : {τ : List Type} → (fs : Fields τ) → fs.Filled fs.blank
  | _, nil => trivial
  | _, cons _ rest => ⟨nofun, rest.filled_blank⟩

theorem Filled.place : {τ : List Type} → {fs : Fields τ} → {slots slots' : Slots τ} →
    {n : String} → {d : Doc} → fs.Filled slots → fs.place slots n d = some (.ok slots') →
    fs.Filled slots'
  | _, nil, _, _, _, _, _, h => nomatch h
  | _, cons f rest, (slot, slots), slots', n, d, filled, h => by
    obtain ⟨hslot, hslots⟩ := filled
    rcases place_eq_ok.mp h with ⟨-, -, a, ha, rfl⟩ | ⟨-, others, hplace, rfl⟩
    · refine ⟨?_, hslots⟩
      rintro b ⟨rfl⟩
      exact ⟨d, ha⟩
    · exact ⟨hslot, hslots.place hplace⟩

theorem Filled.readMembers {fs : Fields τ} {slots slots' : Slots τ} {ms : List (Name × Doc)}
    (filled : fs.Filled slots) (h : fs.readMembers slots ms = .ok slots') : fs.Filled slots' := by
  induction ms generalizing slots with
  | nil => cases h; exact filled
  | cons m ms ih =>
    obtain ⟨n, d⟩ := m
    cases n with
    | none => cases h
    | some n =>
      rw [Fields.readMembers] at h
      split at h
      next =>
        split at h
        · exact ih filled h
        · cases h
      next => cases h
      next others hplace => exact ih (filled.place hplace) h

theorem Filled.values : {τ : List Type} → {fs : Fields τ} → {slots : Slots τ} → {as : Tuple τ} →
    fs.Filled slots → fs.values slots = .ok as → fs.Reads as
  | _, nil, _, _, _, _ => trivial
  | _, cons f rest, (slot, slots), as, filled, h => by
    obtain ⟨hslot, hslots⟩ := filled
    rw [Fields.values] at h
    cases ha : slot.or f.absent with
    | none => simp only [ha] at h; cases h
    | some a =>
      simp only [ha] at h
      obtain ⟨others, hs, rfl⟩ := exists_of_map_eq_ok h
      refine ⟨?_, hslots.values hs⟩
      rcases Option.or_eq_some_iff.mp ha with h | ⟨-, h⟩
      · exact .inl (hslot a h)
      · exact .inr h

theorem reads_of_readItems : {τ : List Type} → {fs : Fields τ} → {expected : String} →
    {index : Nat} → {ds : List Doc} → {ending : Ending} → {as : Tuple τ} →
    readItems expected fs index ds ending = .ok as → fs.Reads as
  | _, nil, _, _, _, _, _, _ => trivial
  | _, cons f rest, expected, index, d :: ds, ending, as, h => by
    rw [readItems_cons] at h
    obtain ⟨a, ha, h⟩ := exists_of_bind_eq_ok h
    obtain ⟨others, hs, rfl⟩ := exists_of_map_eq_ok h
    exact ⟨.inl ⟨d, ha⟩, reads_of_readItems hs⟩
  | _, cons _ _, _, _, [], .cut, _, h => nomatch h
  | _, cons f rest, expected, index, [], .closed, as, h => by
    rw [readItems] at h
    cases ha : f.absent with
    | none => simp only [ha] at h; cases h
    | some a =>
      simp only [ha] at h
      obtain ⟨others, hs, rfl⟩ := exists_of_map_eq_ok h
      exact ⟨.inr ha, reads_of_readItems hs⟩

theorem reads_of_codec {fs : Fields τ} {title : String} {as : Tuple τ}
    (h : (fs.codec title).Reads as) : fs.Reads as := by
  obtain ⟨d, hd⟩ := h
  cases d with
  | array ds ending => exact reads_of_readItems hd
  | object ms ending =>
    rw [read_object] at hd
    obtain ⟨slots, hs, hd⟩ := exists_of_bind_eq_ok hd
    split at hd
    · exact (fs.filled_blank.readMembers hs).values hd
    · cases hd
  | _ => cases hd

end Fields
end Flowgraph.Json
