import Flowgraph.Proofs.Json.Record
import Mathlib.Data.List.Perm.Basic
/-!
# Records, member by member

Reading an object goes through its members one at a time, and each fills at most one field. So
members that can be read can be read in any order, and a field that is given again, under whichever
of its names, is a duplicate.
-/
namespace Flowgraph.Json

abbrev Member := Name × Doc

namespace Fields
variable {τ : List Type}

def readMember (fs : Fields τ) (slots : Slots τ) (m : Member) : Except Fault (Slots τ) :=
  match m with
  | (none, _) => .error .malformed
  | (some n, d) => (fs.place slots n d).getD (if d.isWhole then .ok slots else .error .malformed)

theorem readMembers_bind (fs : Fields τ) (slots : Slots τ) (m : Member) (ms : List Member) :
    fs.readMembers slots (m :: ms) =
      (fs.readMember slots m).bind fun slots => fs.readMembers slots ms := by
  obtain ⟨_ | n, d⟩ := m
  · rfl
  · rw [readMembers, readMember]
    cases fs.place slots n d with
    | none =>
      simp only [Option.getD_none]
      split <;> rfl
    | some r => cases r <;> rfl

theorem place_eq_none {fs : Fields τ} {slots : Slots τ} {n : String} {d : Doc}
    (h : fs.place slots n d = none) (slots' : Slots τ) (d' : Doc) : fs.place slots' n d' = none := by
  induction fs with
  | nil => rfl
  | cons f rest ih =>
    obtain ⟨slot, slots⟩ := slots
    obtain ⟨slot', slots'⟩ := slots'
    by_cases hn : f.goesBy n = true
    · simp only [place, hn, if_true] at h
      cases slot <;> cases h
    · rw [Bool.not_eq_true] at hn
      rw [place_of_foreign hn, Option.map_eq_none_iff] at h ⊢
      exact ih h slots'

theorem place_behind {α : Type} {σ : List Type} {inner : Fields σ} {outer : Fields τ}
    {into : Slots σ → Slots τ} {n : String} {d : Doc}
    (h : ∀ slots, outer.place (into slots) n d = (inner.place slots n d).map fun r => r.map into)
    (f : Field α) (slots : Slots (α :: σ)) :
    (cons f outer).place (slots.1, into slots.2) n d =
      ((cons f inner).place slots n d).map fun r => r.map fun slots => (slots.1, into slots.2) := by
  obtain ⟨slot, slots⟩ := slots
  by_cases hn : f.goesBy n = true
  · simp only [place, hn, if_true]
    cases slot with
    | some a => rfl
    | none => cases f.read d <;> rfl
  · rw [Bool.not_eq_true] at hn
    rw [place_of_foreign hn, place_of_foreign hn, h]
    rcases inner.place slots n d with - | (fault | after) <;> rfl

theorem place_swap {fs : Fields τ} {slots mid after : Slots τ} {n n' : String} {d d' : Doc}
    (h : fs.place slots n d = some (.ok mid)) (h' : fs.place mid n' d' = some (.ok after)) :
    ∃ mid', fs.place slots n' d' = some (.ok mid') ∧ fs.place mid' n d = some (.ok after) := by
  induction fs with
  | nil => cases h
  | cons f rest ih =>
    obtain ⟨slot, slots⟩ := slots
    rcases place_eq_ok.mp h with ⟨hn, rfl, a, ha, rfl⟩ | ⟨hn, others, hplace, rfl⟩
    · rcases place_eq_ok.mp h' with ⟨-, hfull, -⟩ | ⟨hn', others, hplace', rfl⟩
      · -- Both members are for this field, which the first has filled.
        cases hfull
      · refine ⟨(none, others), ?_, ?_⟩
        · exact place_eq_ok.mpr (.inr ⟨hn', others, hplace', rfl⟩)
        · exact place_eq_ok.mpr (.inl ⟨hn, rfl, a, ha, rfl⟩)
    · rcases place_eq_ok.mp h' with ⟨hn', rfl, a, ha, rfl⟩ | ⟨hn', others', hplace', rfl⟩
      · refine ⟨(some a, slots), ?_, ?_⟩
        · exact place_eq_ok.mpr (.inl ⟨hn', rfl, a, ha, rfl⟩)
        · exact place_eq_ok.mpr (.inr ⟨hn, others, hplace, rfl⟩)
      · obtain ⟨between, hfirst, hsecond⟩ := ih hplace hplace'
        refine ⟨(slot, between), ?_, ?_⟩
        · exact place_eq_ok.mpr (.inr ⟨hn', between, hfirst, rfl⟩)
        · exact place_eq_ok.mpr (.inr ⟨hn, others', hsecond, rfl⟩)

theorem readMember_eq_ok {fs : Fields τ} {slots after : Slots τ} {m : Member} :
    fs.readMember slots m = .ok after ↔ ∃ n, m.1 = some n ∧
      (fs.place slots n m.2 = some (.ok after) ∨
        fs.place slots n m.2 = none ∧ m.2.isWhole = true ∧ after = slots) := by
  obtain ⟨_ | n, d⟩ := m
  · simp [readMember]
  · simp only [readMember, Option.some.injEq, exists_eq_left']
    rcases fs.place slots n d with - | x
    · cases d.isWhole <;> simp [eq_comm]
    · simp

theorem readMember_swap {fs : Fields τ} {slots mid after : Slots τ} {m m' : Member}
    (h : fs.readMember slots m = .ok mid) (h' : fs.readMember mid m' = .ok after) :
    ∃ mid', fs.readMember slots m' = .ok mid' ∧ fs.readMember mid' m = .ok after := by
  obtain ⟨n, hn, hplace⟩ := readMember_eq_ok.mp h
  obtain ⟨n', hn', hplace'⟩ := readMember_eq_ok.mp h'
  rcases hplace with hplace | ⟨hnone, hwhole, rfl⟩
  · rcases hplace' with hplace' | ⟨hnone', hwhole', rfl⟩
    · obtain ⟨mid', hfirst, hsecond⟩ := place_swap hplace hplace'
      exact ⟨mid', readMember_eq_ok.mpr ⟨n', hn', .inl hfirst⟩,
        readMember_eq_ok.mpr ⟨n, hn, .inl hsecond⟩⟩
    · exact ⟨slots, readMember_eq_ok.mpr ⟨n', hn', .inr ⟨place_eq_none hnone' _ _, hwhole', rfl⟩⟩, h⟩
  · -- The first member is strange, so it leaves the slots alone wherever it stands.
    exact ⟨after, h', readMember_eq_ok.mpr ⟨n, hn, .inr ⟨place_eq_none hnone _ _, hwhole, rfl⟩⟩⟩

theorem readMembers_perm {fs : Fields τ} {slots after : Slots τ} {ms ms' : List Member}
    (h : fs.readMembers slots ms = .ok after) (perm : ms.Perm ms') :
    fs.readMembers slots ms' = .ok after := by
  -- Only a swap does anything, and it leaves the same slots behind it.
  induction perm generalizing slots with
  | nil => exact h
  | cons m _ ih =>
    rw [readMembers_bind] at h ⊢
    obtain ⟨mid, hm, hms⟩ := exists_of_bind_eq_ok h
    rw [hm]
    exact ih hms
  | swap m m' ms =>
    rw [readMembers_bind] at h
    obtain ⟨mid, hm', hms⟩ := exists_of_bind_eq_ok h
    rw [readMembers_bind] at hms
    obtain ⟨both, hm, hms⟩ := exists_of_bind_eq_ok hms
    obtain ⟨mid', hfirst, hsecond⟩ := readMember_swap hm' hm
    rw [readMembers_bind, hfirst]
    change fs.readMembers mid' (m' :: ms) = .ok after
    rw [readMembers_bind, hsecond]
    exact hms
  | trans _ _ ih ih' => exact ih' (ih h)

/-! Duplicates -/

theorem readMembers_append (fs : Fields τ) (slots : Slots τ) (before rest : List Member) :
    fs.readMembers slots (before ++ rest) =
      (fs.readMembers slots before).bind fun slots => fs.readMembers slots rest := by
  induction before generalizing slots with
  | nil => rfl
  | cons m before ih =>
    rw [List.cons_append, readMembers_bind, readMembers_bind]
    cases fs.readMember slots m with
    | error fault => rfl
    | ok mid => exact ih mid

/-- Both names belong to one field, the one that is called `name`. -/
def Synonyms : {τ : List Type} → Fields τ → String → String → String → Prop
  | _, nil, _, _, _ => False
  | _, cons f rest, n, n', name =>
    f.goesBy n = true ∧ f.goesBy n' = true ∧ f.name = name ∨
      f.goesBy n = false ∧ f.goesBy n' = false ∧ rest.Synonyms n n' name

instance decidableSynonyms : {τ : List Type} → (fs : Fields τ) → (n n' name : String) →
    Decidable (fs.Synonyms n n' name)
  | _, nil, _, _, _ => isFalse id
  | _, cons f rest, n, n', name =>
    have := rest.decidableSynonyms n n' name
    inferInstanceAs (Decidable (f.goesBy n = true ∧ f.goesBy n' = true ∧ f.name = name ∨
      f.goesBy n = false ∧ f.goesBy n' = false ∧ rest.Synonyms n n' name))

/-- The field that goes by `n` is the one that is called `name`, and it has its value. -/
def Taken : {τ : List Type} → Fields τ → Slots τ → String → String → Prop
  | _, nil, _, _, _ => False
  | _, cons f rest, (slot, slots), n, name =>
    f.goesBy n = true ∧ slot ≠ none ∧ f.name = name ∨ f.goesBy n = false ∧ rest.Taken slots n name

theorem Taken.place_eq {fs : Fields τ} {slots : Slots τ} {n name : String}
    (h : fs.Taken slots n name) (d : Doc) :
    fs.place slots n d = some (.error (.duplicateField name)) := by
  induction fs with
  | nil => exact h.elim
  | cons f rest ih =>
    obtain ⟨slot, slots⟩ := slots
    rcases h with ⟨hn, hslot, rfl⟩ | ⟨hn, taken⟩
    · obtain ⟨a, rfl⟩ := Option.ne_none_iff_exists'.mp hslot
      simp only [place, hn, if_true]
    · rw [place_of_foreign hn, ih taken]
      rfl

theorem taken_of_place {fs : Fields τ} {slots after : Slots τ} {n n' name : String} {d : Doc}
    (same : fs.Synonyms n n' name) (h : fs.place slots n d = some (.ok after)) :
    fs.Taken after n' name := by
  induction fs with
  | nil => cases h
  | cons f rest ih =>
    obtain ⟨slot, slots⟩ := slots
    rcases place_eq_ok.mp h with ⟨goes, -, a, -, rfl⟩ | ⟨foreign, others, hplace, rfl⟩
    · rcases same with ⟨-, hn', hname⟩ | ⟨hn, -⟩
      · exact .inl ⟨hn', nofun, hname⟩
      · rw [goes] at hn
        cases hn
    · rcases same with ⟨hn, -⟩ | ⟨-, hn', same⟩
      · rw [foreign] at hn
        cases hn
      · exact .inr ⟨hn', ih same hplace⟩

theorem Taken.place {fs : Fields τ} {slots after : Slots τ} {n m name : String} {d : Doc}
    (taken : fs.Taken slots n name) (h : fs.place slots m d = some (.ok after)) :
    fs.Taken after n name := by
  induction fs with
  | nil => cases h
  | cons f rest ih =>
    obtain ⟨slot, slots⟩ := slots
    rcases taken with ⟨hn, hslot, hname⟩ | ⟨hn, taken⟩
    · rcases place_eq_ok.mp h with ⟨-, rfl, -⟩ | ⟨-, others, -, rfl⟩
      · exact absurd rfl hslot
      · exact .inl ⟨hn, hslot, hname⟩
    · rcases place_eq_ok.mp h with ⟨-, -, a, -, rfl⟩ | ⟨-, others, hplace, rfl⟩
      · exact .inr ⟨hn, taken⟩
      · exact .inr ⟨hn, ih taken hplace⟩

theorem Taken.readMembers {fs : Fields τ} {slots after : Slots τ} {n name : String}
    {ms : List Member} (taken : fs.Taken slots n name) (h : fs.readMembers slots ms = .ok after) :
    fs.Taken after n name := by
  induction ms generalizing slots with
  | nil =>
    cases h
    exact taken
  | cons m ms ih =>
    rw [readMembers_bind] at h
    obtain ⟨mid, hm, hms⟩ := exists_of_bind_eq_ok h
    obtain ⟨_, -, hplace | ⟨-, -, rfl⟩⟩ := readMember_eq_ok.mp hm
    · exact ih (taken.place hplace) hms
    · exact ih taken hms

theorem Synonyms.place_ne_none {fs : Fields τ} {n n' name : String} (same : fs.Synonyms n n' name)
    (slots : Slots τ) (d : Doc) : fs.place slots n d ≠ none := by
  induction fs with
  | nil => exact same.elim
  | cons f rest ih =>
    obtain ⟨slot, slots⟩ := slots
    rcases same with ⟨hn, -⟩ | ⟨hn, -, same⟩
    · simp only [place, hn, if_true]
      rcases slot with - | a
      · exact Option.some_ne_none _
      · exact Option.some_ne_none _
    · rw [place_of_foreign hn, ne_eq, Option.map_eq_none_iff]
      exact ih same slots

theorem taken_of_mem {fs : Fields τ} {slots after : Slots τ} {n n' name : String} {d : Doc}
    {ms : List Member} (same : fs.Synonyms n n' name) (hm : (some n, d) ∈ ms)
    (h : fs.readMembers slots ms = .ok after) : fs.Taken after n' name := by
  induction ms generalizing slots with
  | nil => cases hm
  | cons m ms ih =>
    rw [readMembers_bind] at h
    obtain ⟨mid, hfirst, hms⟩ := exists_of_bind_eq_ok h
    rcases List.mem_cons.mp hm with rfl | hm
    · obtain ⟨_, ⟨rfl⟩, hplace | ⟨hnone, -⟩⟩ := readMember_eq_ok.mp hfirst
      · exact (taken_of_place same hplace).readMembers hms
      · exact absurd hnone (same.place_ne_none slots d)
    · exact ih hm hms

end Fields

namespace Codec
variable {α β : Type} {c : Codec α} {name : String} {aliases : List String}

/-- A second member for a field is a duplicate under the first of its names, whatever comes after it.
Only a fault in a member before is met sooner. -/
def RefusesRepeats (c : Codec α) (name : String) (aliases : List String) : Prop :=
  ∀ before n d n' d' rest ending, (some n, d) ∈ before → n ∈ name :: aliases →
    n' ∈ name :: aliases →
    c.read (.object (before ++ (some n', d') :: rest) ending) = .error (.duplicateField name) ∨
      ∃ fault, ∀ more ending, c.read (.object (before ++ more) ending) = .error fault

theorem RefusesRepeats.map (h : c.RefusesRepeats name aliases) (make : α → β) (of : β → α) :
    (c.map make of).RefusesRepeats name aliases := by
  intro before n d n' d' rest ending hm hn hn'
  rcases h before n d n' d' rest ending hm hn hn' with repeated | ⟨fault, failed⟩
  · exact .inl (congrArg (Except.map make) repeated)
  · right
    refine ⟨fault, ?_⟩
    intro more ending
    exact congrArg (Except.map make) (failed more ending)

end Codec

namespace Fields
variable {τ : List Type}

theorem codec_refusesRepeats {fs : Fields τ} {name : String} {aliases : List String}
    (same : ∀ n ∈ name :: aliases, ∀ n' ∈ name :: aliases, fs.Synonyms n n' name) (title : String) :
    (fs.codec title).RefusesRepeats name aliases := by
  intro before n d n' d' rest ending hm hn hn'
  cases hbefore : fs.readMembers fs.blank before with
  | error fault =>
    right
    refine ⟨fault, ?_⟩
    intro more ending
    rw [read_object, readMembers_append, hbefore]
    rfl
  | ok slots =>
    left
    have taken := taken_of_mem (same n hn n' hn') hm hbefore
    rw [read_object, readMembers_append, hbefore]
    change (fs.readMembers slots ((some n', d') :: rest)).bind _ = _
    rw [readMembers, taken.place_eq d']
    rfl

end Fields
end Flowgraph.Json
