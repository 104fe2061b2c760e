import Flowgraph.Proofs.Json.Member
import Mathlib.Logic.Relation
/-!
# Edits that reading does not notice

A document can be rewritten in three ways without being read otherwise: fields may go by their other
names, strange members may be put into records, and the members of a record may change places. The
last only holds of documents that are read without a fault, because the first fault in a text is the
one that is reported.

An edit may reach into every part of a document that is itself read as a record. What a record looks
like in a document is given by its shapes, one for each field.
-/
namespace Flowgraph.Json

inductive Edit where
  | respell
  | extend
  | rearrange

/-- A field as documents have it: the names it goes by, and what its value may be edited into. -/
structure Shape where
  names : List String
  value : Doc → Doc → Prop

namespace Edit

def Strange (row : List Shape) (n : String) : Prop := ∀ s ∈ row, n ∉ s.names

/-- What may become of a member where it stands. Only a respelling gives it another name. -/
inductive Keeps (e : Edit) (row : List Shape) : Member → Member → Prop
  | same (m : Member) : Keeps e row m m
  | field {s : Shape} {n n' : String} {d d' : Doc} (hs : s ∈ row) (hn : n ∈ s.names)
      (hn' : n' ∈ s.names) (renamed : n = n' ∨ e = .respell) (hd : s.value d d') :
      Keeps e row (some n, d) (some n', d')

/-- Strange members stand between the others. Their values are any JSON. -/
inductive Strewn (row : List Shape) : List Member → List Member → Prop
  | nil : Strewn row [] []
  | keep (m : Member) {ms ms' : List Member} (h : Strewn row ms ms') :
      Strewn row (m :: ms) (m :: ms')
  | put {n : String} {d : Doc} {ms ms' : List Member} (hn : Strange row n) (hd : d.Grammatical)
      (h : Strewn row ms ms') : Strewn row ms ((some n, d) :: ms')

/-- What may become of the members as a list. -/
def Moves (row : List Shape) : Edit → List Member → List Member → Prop
  | respell => Eq
  | extend => Strewn row
  | rearrange => List.Perm

/-- What may become of the items of a record that is given as an array. -/
inductive Positions : List Shape → List Doc → List Doc → Prop
  | rest (row : List Shape) (ds : List Doc) : Positions row ds ds
  | cons {s : Shape} {row : List Shape} {d d' : Doc} {ds ds' : List Doc} (hd : s.value d d')
      (h : Positions row ds ds') : Positions (s :: row) (d :: ds) (d' :: ds')

/-- What may become of a record. Only its members are moved about. -/
inductive Record (e : Edit) (row : List Shape) : Doc → Doc → Prop
  | same (d : Doc) : Record e row d d
  | members {ms kept ms' : List Member} {ending : Ending}
      (hkept : List.Forall₂ (Keeps e row) ms kept) (hmoved : e.Moves row kept ms') :
      Record e row (.object ms ending) (.object ms' ending)
  | items {ds ds' : List Doc} {ending : Ending} (h : Positions row ds ds') :
      Record e row (.array ds ending) (.array ds' ending)

theorem Record.respelt {row : List Shape} {ms ms' : List (String × Doc)}
    (h : List.Forall₂ (Keeps .respell row) (named ms) (named ms')) :
    Record .respell row (.record ms) (.record ms') := .members h rfl

inductive Items (value : Doc → Doc → Prop) : Doc → Doc → Prop
  | same (d : Doc) : Items value d d
  | items {ds ds' : List Doc} {ending : Ending} (h : List.Forall₂ value ds ds') :
      Items value (.array ds ending) (.array ds' ending)

/-- The outcome is the same. A rearranged document may show another fault in place of a fault. -/
def Agree {α : Type} (e : Edit) (x y : Except Fault α) : Prop :=
  x = y ∨ e = .rearrange ∧ ∃ f, x = .error f

section
variable {α β : Type} {e : Edit} {x y : Except Fault α}

theorem Agree.refl (x : Except Fault α) : e.Agree x x := .inl rfl

theorem Agree.trans {z : Except Fault α} (h : e.Agree x y) (h' : e.Agree y z) : e.Agree x z := by
  rcases h with rfl | failed
  · exact h'
  · exact .inr failed

theorem Agree.map (h : e.Agree x y) (f : α → β) : e.Agree (x.map f) (y.map f) := by
  rcases h with rfl | ⟨he, fault, rfl⟩
  · exact .refl _
  · exact .inr ⟨he, fault, rfl⟩

theorem Agree.bind {f g : α → Except Fault β} (h : e.Agree x y) (hf : ∀ a, e.Agree (f a) (g a)) :
    e.Agree (x.bind f) (y.bind g) := by
  rcases h with rfl | ⟨he, fault, rfl⟩
  · cases x with
    | error fault => exact .refl _
    | ok a => exact hf a
  · exact .inr ⟨he, fault, rfl⟩

theorem Agree.eq (h : e.Agree x y) (he : e ≠ .rearrange) : x = y :=
  h.resolve_right fun h => he h.1

theorem Agree.of_ok {a : α} (h : e.Agree x y) (ha : x = .ok a) : y = .ok a := by
  rcases h with rfl | ⟨-, fault, rfl⟩
  · exact ha
  · cases ha

end
end Edit

open Edit

namespace Codec
variable {α β : Type} {c : Codec α} {e : Edit} {R : Doc → Doc → Prop}

/-- The codec does not notice the edits. -/
def Tolerates (c : Codec α) (e : Edit) (R : Doc → Doc → Prop) : Prop :=
  ∀ d d', R d d' → e.Agree (c.read d) (c.read d')

theorem Tolerates.map (h : c.Tolerates e R) (make : α → β) (of : β → α) :
    (c.map make of).Tolerates e R := by
  intro d d' hd
  exact (h d d' hd).map make

theorem Tolerates.readItems (h : c.Tolerates e R) {ds ds' : List Doc}
    (hds : List.Forall₂ R ds ds') : e.Agree (c.readItems ds) (c.readItems ds') := by
  induction hds with
  | nil => exact .refl _
  | @cons d d' ds ds' hd _ ih =>
    rw [readItems_cons, readItems_cons]
    exact (h d d' hd).bind fun a => ih.map _

theorem Tolerates.list (h : c.Tolerates e R) : c.list.Tolerates e (Items R) := by
  rintro d d' (⟨⟩ | @⟨ds, ds', ending, hds⟩)
  · exact .refl _
  · rw [read_array, read_array]
    exact (h.readItems hds).bind fun as => .refl _

theorem Tolerates.nullable {row : List Shape} (h : c.Tolerates e (e.Record row)) :
    c.nullable.Tolerates e (e.Record row) := by
  intro d d' hd
  cases hd with
  | same => exact .refl _
  | members hkept hmoved => exact (h _ _ (.members hkept hmoved)).map some
  | items hds => exact (h _ _ (.items hds)).map some

theorem Tolerates.parse (h : c.Tolerates e R) {d d' : Doc} {text text' : String}
    (hd : d.SpeltAs text) (hd' : d'.SpeltAs text') (hr : R d d') :
    e.Agree (c.parse text) (c.parse text') := by
  rw [parse_of_speltAs hd, parse_of_speltAs hd']
  exact h d d' hr

/-- Any number of respellings, and of respellings undone, are not noticed either. -/
theorem Tolerates.parse_eq (h : c.Tolerates .respell R) {d d' : Doc} {text text' : String}
    (hd : d.SpeltAs text) (hd' : d'.SpeltAs text') (hr : Relation.EqvGen R d d') :
    c.parse text = c.parse text' := by
  rw [parse_of_speltAs hd, parse_of_speltAs hd']
  clear hd hd'
  induction hr with
  | rel d d' hr => exact (h d d' hr).eq nofun
  | refl => rfl
  | symm _ _ _ ih => exact ih.symm
  | trans _ _ _ _ _ ih ih' => exact ih.trans ih'

/-- Strange members make no difference, and neither does the order of the members of a text that is
read without a fault. -/
structure Forward (c : Codec α) (Edited : Edit → Doc → Doc → Prop) : Prop where
  extended : ∀ d d' text text', d.SpeltAs text → d'.SpeltAs text' → Edited .extend d d' →
    c.parse text' = c.parse text
  rearranged : ∀ d d' text text', d.SpeltAs text → d'.SpeltAs text' → Edited .rearrange d d' →
    ∀ a, c.parse text = .ok a → c.parse text' = .ok a

theorem forward_of_tolerates {Edited : Edit → Doc → Doc → Prop}
    (h : ∀ e, c.Tolerates e (Edited e)) : c.Forward Edited where
  extended := by
    intro d d' text text' hd hd' hr
    have agree := (h .extend).parse hd hd' hr
    exact (agree.eq nofun).symm
  rearranged := by
    intro d d' text text' hd hd' hr a ha
    have agree := (h .rearrange).parse hd hd' hr
    exact agree.of_ok ha

end Codec

/-! Records -/

namespace Field
variable {α : Type} {f : Field α} {e : Edit} {s : Shape}

theorem goesBy_iff {n : String} : f.goesBy n = true ↔ n ∈ f.name :: f.aliases := by
  simp [goesBy]

/-- The field goes by the names of the shape, and its reader does not notice the edits. -/
structure Fits (f : Field α) (e : Edit) (s : Shape) : Prop where
  names : f.name :: f.aliases = s.names
  value : ∀ d d', s.value d d' → e.Agree (f.read d) (f.read d')

theorem Fits.goesBy (h : f.Fits e s) {n : String} : f.goesBy n = true ↔ n ∈ s.names := by
  rw [goesBy_iff, h.names]

theorem Fits.foreign (h : f.Fits e s) {n : String} (hn : n ∉ s.names) : f.goesBy n = false := by
  rwa [← Bool.not_eq_true, h.goesBy]

variable {c : Codec α} {name : String} {aliases : List String} {R : Doc → Doc → Prop}

theorem plain_fits {names : List String} (h : f.name :: f.aliases = names) :
    f.Fits e ⟨names, Eq⟩ := by
  refine ⟨h, ?_⟩
  rintro d - rfl
  exact .refl _

theorem required_fits (h : c.Tolerates e R) :
    (required name c aliases).Fits e ⟨name :: aliases, R⟩ := ⟨rfl, h⟩

theorem defaulted_fits (h : c.Tolerates e R) (absent : α) :
    (defaulted name c absent).Fits e ⟨[name], R⟩ := ⟨rfl, h⟩

theorem optional_fits {row : List Shape} (h : c.Tolerates e (e.Record row)) :
    (optional name c aliases).Fits e ⟨name :: aliases, e.Record row⟩ := ⟨rfl, h.nullable⟩

end Field

namespace Fields
variable {τ : List Type} {e : Edit}

def Fits (e : Edit) : {τ : List Type} → Fields τ → List Shape → Prop
  | _, nil, [] => True
  | _, cons f rest, s :: row => f.Fits e s ∧ rest.Fits e row
  | _, _, _ => False

def Apart (row : List Shape) : Prop := (row.flatMap Shape.names).Nodup

instance (row : List Shape) : Decidable (Apart row) :=
  inferInstanceAs (Decidable (row.flatMap Shape.names).Nodup)

theorem Apart.of_cons {s : Shape} {row : List Shape} (h : Apart (s :: row)) :
    Apart row ∧ ∀ t ∈ row, ∀ n ∈ t.names, n ∉ s.names := by
  rw [Apart, List.flatMap_cons, List.nodup_append] at h
  obtain ⟨-, hrow, hs⟩ := h
  refine ⟨hrow, ?_⟩
  intro t ht n hn hns
  exact hs n hns n (List.mem_flatMap.mpr ⟨t, ht, hn⟩) rfl

theorem place_of_mem {fs : Fields τ} {row : List Shape} (fits : fs.Fits e row) (apart : Apart row)
    {s : Shape} (hs : s ∈ row) {n n' : String} (hn : n ∈ s.names) (hn' : n' ∈ s.names) {d d' : Doc}
    (hd : s.value d d') (slots : Slots τ) :
    ∃ x y, fs.place slots n d = some x ∧ fs.place slots n' d' = some y ∧ e.Agree x y := by
  induction fs generalizing row with
  | nil =>
    cases row with
    | nil => cases hs
    | cons t row => exact fits.elim
  | cons f rest ih =>
    cases row with
    | nil => exact fits.elim
    | cons t row =>
      obtain ⟨hf, hrest⟩ := fits
      obtain ⟨hrow, hapart⟩ := apart.of_cons
      obtain ⟨slot, slots⟩ := slots
      rcases List.mem_cons.mp hs with rfl | hs
      · simp only [place, hf.goesBy.mpr hn, hf.goesBy.mpr hn', if_true]
        cases slot with
        | some a => exact ⟨_, _, rfl, rfl, .refl _⟩
        | none => exact ⟨_, _, rfl, rfl, (hf.value d d' hd).map _⟩
      · have foreign {n : String} (hn : n ∈ s.names) : f.goesBy n = false :=
          hf.foreign (hapart s hs n hn)
        obtain ⟨x, y, hx, hy, hxy⟩ := ih hrest hrow hs slots
        rw [place_of_foreign (foreign hn), place_of_foreign (foreign hn'), hx, hy]
        exact ⟨_, _, rfl, rfl, hxy.map _⟩

theorem place_of_strange {fs : Fields τ} {row : List Shape} (fits : fs.Fits e row) {n : String}
    (strange : Strange row n) (slots : Slots τ) (d : Doc) : fs.place slots n d = none := by
  induction fs generalizing row with
  | nil => rfl
  | cons f rest ih =>
    cases row with
    | nil => exact fits.elim
    | cons t row =>
      obtain ⟨hf, hrest⟩ := fits
      obtain ⟨ht, hrow⟩ := List.forall_mem_cons.mp strange
      obtain ⟨slot, slots⟩ := slots
      rw [place_of_foreign (hf.foreign ht), ih hrest hrow slots]
      rfl

section
variable {fs : Fields τ} {row : List Shape} (fits : fs.Fits e row) (apart : Apart row)
include fits

include apart in
theorem readMember_keeps {m m' : Member} (h : Keeps e row m m') (slots : Slots τ) :
    e.Agree (fs.readMember slots m) (fs.readMember slots m') := by
  cases h with
  | same => exact .refl _
  | field hs hn hn' _ hd =>
    obtain ⟨x, y, hx, hy, hxy⟩ := place_of_mem fits apart hs hn hn' hd slots
    rwa [readMember, readMember, hx, hy]

include apart in
theorem readMembers_keeps {ms ms' : List Member} (h : List.Forall₂ (Keeps e row) ms ms')
    (slots : Slots τ) : e.Agree (fs.readMembers slots ms) (fs.readMembers slots ms') := by
  induction h generalizing slots with
  | nil => exact .refl _
  | cons hm _ ih =>
    rw [readMembers_bind, readMembers_bind]
    exact (readMember_keeps fits apart hm slots).bind ih

theorem readMembers_strewn {ms ms' : List Member} (h : Strewn row ms ms') (slots : Slots τ) :
    fs.readMembers slots ms = fs.readMembers slots ms' := by
  induction h generalizing slots with
  | nil => rfl
  | keep m _ ih =>
    rw [readMembers_bind, readMembers_bind]
    exact congrArg _ (funext ih)
  | @put n d ms ms' hn hd _ ih =>
    obtain ⟨cs, value⟩ := hd
    have skipped : fs.readMember slots (some n, d) = .ok slots := by
      rw [readMember, place_of_strange fits hn slots d, Option.getD_none,
        if_pos (Doc.isWhole_of_value value)]
    rw [readMembers_bind, skipped]
    exact ih slots

theorem readMembers_moves {ms ms' : List Member} (h : e.Moves row ms ms') (slots : Slots τ) :
    e.Agree (fs.readMembers slots ms) (fs.readMembers slots ms') := by
  cases e with
  | respell =>
    cases h
    exact .refl _
  | extend => exact .inl (readMembers_strewn fits h slots)
  | rearrange =>
    cases hms : fs.readMembers slots ms with
    | error fault => exact .inr ⟨rfl, fault, rfl⟩
    | ok after => exact .inl (readMembers_perm hms h).symm

theorem readItems_positions {ds ds' : List Doc} (h : Positions row ds ds') (expected : String)
    (index : Nat) (ending : Ending) :
    e.Agree (readItems expected fs index ds ending) (readItems expected fs index ds' ending) := by
  induction h generalizing τ index with
  | rest => exact .refl _
  | @cons s row d d' ds ds' hd _ ih =>
    cases fs with
    | nil => exact fits.elim
    | cons f rest =>
      obtain ⟨hf, hrest⟩ := fits
      rw [readItems_cons, readItems_cons]
      exact (hf.value d d' hd).bind fun a => (ih hrest (index + 1)).map _

theorem codec_tolerates (apart : Apart row) (title : String) :
    (fs.codec title).Tolerates e (e.Record row) := by
  rintro d d' (⟨⟩ | @⟨ms, kept, ms', ending, hkept, hmoved⟩ | @⟨ds, ds', ending, hds⟩)
  · exact .refl _
  · rw [read_object, read_object]
    -- The fields that are missing are found once all members are read, so they cannot differ.
    apply Agree.bind _ fun slots => .refl _
    exact (readMembers_keeps fits apart hkept _).trans (readMembers_moves fits hmoved _)
  · exact readItems_positions fits hds _ 0 ending

end
end Fields
end Flowgraph.Json
