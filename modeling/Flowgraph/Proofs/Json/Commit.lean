import Flowgraph.Proofs.Json.Growth
import Flowgraph.Proofs.Json.Member
/-!
# The first problem of a document

A reader that meets a problem of the content commits itself to it. Whatever else the document grows
into, the complaint is the same. Only a document that was not finished, and was fine so far, may
still turn out to be anything.
-/
namespace Flowgraph.Json

namespace Fault
variable {α β γ : Type}

/-- A fault of the content in one outcome is the fault of the other. -/
def Kept (x : Except Fault α) (y : Except Fault β) : Prop :=
  ∀ f, f ≠ .malformed → x = .error f → y = .error f

namespace Kept
variable {x : Except Fault α} {y : Except Fault β}

theorem refl (x : Except Fault α) : Kept x x := fun _ _ h => h

theorem ok (a : α) (y : Except Fault β) : Kept (.ok a : Except Fault α) y := fun _ _ h => nomatch h

theorem malformed (y : Except Fault β) : Kept (.error .malformed : Except Fault α) y := by
  intro f hf h
  cases h
  exact absurd rfl hf

theorem map {y : Except Fault α} (h : Kept x y) (g : α → β) : Kept (x.map g) (y.map g) := by
  intro f hf hx
  cases x with
  | ok a => cases hx
  | error e =>
    cases hx
    rw [h f hf rfl]
    rfl

theorem bind {g : α → Except Fault γ} {k : β → Except Fault γ} (h : Kept x y)
    (hg : ∀ a, x = .ok a → Kept (g a) (y.bind k)) : Kept (x.bind g) (y.bind k) := by
  intro f hf hx
  cases x with
  | ok a => exact hg a rfl f hf hx
  | error e =>
    cases hx
    rw [h f hf rfl]
    rfl

theorem bind_congr (x : Except Fault α) {g k : α → Except Fault β} (h : ∀ a, Kept (g a) (k a)) :
    Kept (x.bind g) (x.bind k) := by
  cases x with
  | ok a => exact h a
  | error e => exact .refl _

/-- A container that was not finished has no fault but that of a part. -/
theorem cut (h : Kept x y) (k : β → Except Fault γ) :
    Kept (x.bind fun _ => (.error .malformed : Except Fault γ)) (y.bind k) :=
  h.bind fun _ _ => .malformed _

end Kept
end Fault

open Fault

theorem Doc.Grows.isWhole_eq_false {d d' : Doc} (h : d.Grows d') : d.isWhole = false := by
  cases h <;> rfl

/-- The reader does not go back on a fault of the content. -/
structure Commits {α : Type} (read : Doc → Except Fault α) : Prop where
  missing : read .missing = .error .malformed
  grows : ∀ {d d'}, d.Grows d' → Kept (read d) (read d')

theorem Commits.grown {α : Type} {read : Doc → Except Fault α} (h : Commits read) {d d' : Doc}
    (hd : Relation.ReflTransGen Doc.Grows d d') : Kept (read d) (read d') := by
  induction hd with
  | refl => exact .refl _
  | tail _ grows ih =>
    intro f hf hx
    exact h.grows grows f hf (ih f hf hx)

theorem commits_of_leaves {α : Type} {read : Doc → Except Fault α} {expected : String}
    (missing : read .missing = .error .malformed)
    (array : ∀ ds ending, read (.array ds ending) = .error (.invalidType .sequence expected))
    (object : ∀ ms ending, read (.object ms ending) = .error (.invalidType .map expected))
    (misnamed : ∀ t, read (.misnamed t) = .error (.invalidType .map expected)) :
    Commits read where
  missing := missing
  grows := by
    intro d d' h
    cases h with
    | begins =>
      rw [missing]
      exact .malformed _
    | items | lastItem =>
      rw [array, array]
      exact .refl _
    | members | lastMember =>
      rw [object, object]
      exact .refl _
    | misnamed =>
      rw [object, misnamed]
      exact .refl _

namespace Codec
variable {α β : Type} {c : Codec α}

theorem text_commits : Commits text.read :=
  commits_of_leaves rfl (fun _ _ => rfl) (fun _ _ => rfl) fun _ => rfl

theorem bool_commits : Commits bool.read :=
  commits_of_leaves rfl (fun _ _ => rfl) (fun _ _ => rfl) fun _ => rfl

theorem integer_commits (expected : String) (ofInt? : Int → Option α) (toInt : α → Int) :
    Commits (integer expected ofInt? toInt).read :=
  commits_of_leaves rfl (fun _ _ => rfl) (fun _ _ => rfl) fun _ => rfl

/-! Words -/

def readUnit : Doc → Except Fault Unit
  | .null => .ok ()
  | d => .error (d.mismatch "unit")

theorem readUnit_commits : Commits readUnit :=
  commits_of_leaves rfl (fun _ _ => rfl) (fun _ _ => rfl) fun _ => rfl

theorem word_read_object [Vocabulary α] (w : String) (d : Doc) (rest : List Member)
    (ending : Ending) :
    (word : Codec α).read (.object ((some w, d) :: rest) ending) =
      (ofWord w : Except Fault α).bind fun a => (readUnit d).bind fun _ =>
        if rest.isEmpty && ending = .closed then .ok a else .error .malformed := by
  simp only [word]
  cases (ofWord w : Except Fault α) with
  | error f => rfl
  | ok a => cases d <;> rfl

theorem word_read_cut [Vocabulary α] (w : String) (d : Doc) (rest : List Member) :
    (word : Codec α).read (.object ((some w, d) :: rest) .cut) =
      (ofWord w : Except Fault α).bind fun _ =>
        (readUnit d).bind fun _ => .error .malformed := by
  rw [word_read_object]
  simp

theorem word_commits [Vocabulary α] : Commits (word : Codec α).read where
  missing := rfl
  grows := by
    -- Only the first member is looked at, and it is the last one only if it stands alone.
    have first (w : String) {d d' : Doc} (h : Kept (readUnit d) (readUnit d'))
        (rest rest' : List Member) (ending : Ending) :
        Kept ((word : Codec α).read (.object ((some w, d) :: rest) .cut))
          ((word : Codec α).read (.object ((some w, d') :: rest') ending)) := by
      rw [word_read_cut, word_read_object]
      exact .bind_congr _ fun a => h.cut _
    intro d d' h
    cases h with
    | begins | items | lastItem | misnamed => exact .malformed _
    | members ms more ending =>
      rcases ms with - | ⟨⟨- | w, d⟩, ms⟩
      · exact .malformed _
      · exact .malformed _
      · exact first w (.refl _) ms (ms ++ more) ending
    | lastMember ms n hd =>
      rcases ms with - | ⟨⟨- | w, e⟩, ms⟩
      · cases n with
        | none => exact .malformed _
        | some w => exact first w (readUnit_commits.grows hd) [] [] .cut
      · exact .malformed _
      · exact first w (.refl _) _ _ .cut

/-! Lists, and values that may be null -/

theorem kept_readItems_append (c : Codec α) (ds more : List Doc) :
    Kept (c.readItems ds) (c.readItems (ds ++ more)) := by
  induction ds with
  | nil => exact .ok _ _
  | cons d ds ih =>
    rw [List.cons_append, readItems_cons, readItems_cons]
    exact .bind_congr _ fun a => ih.map _

theorem kept_readItems_last {d d' : Doc} (h : Kept (c.read d) (c.read d')) (ds : List Doc) :
    Kept (c.readItems (ds ++ [d])) (c.readItems (ds ++ [d'])) := by
  induction ds with
  | nil =>
    rw [List.nil_append, List.nil_append, readItems_cons, readItems_cons]
    exact h.bind fun a _ => .ok _ _
  | cons e ds ih =>
    rw [List.cons_append, List.cons_append, readItems_cons, readItems_cons]
    exact .bind_congr _ fun a => ih.map _

theorem list_commits (h : Commits c.read) : Commits c.list.read where
  missing := rfl
  grows := by
    intro d d' hd
    cases hd with
    | begins => exact .malformed _
    | items ds more ending =>
      rw [read_array, read_array]
      exact (kept_readItems_append c ds more).cut _
    | lastItem ds hd =>
      rw [read_array, read_array]
      exact (kept_readItems_last (h.grows hd) ds).cut _
    | members | lastMember | misnamed => exact .refl _

theorem nullable_commits (h : Commits c.read) : Commits c.nullable.read where
  missing := by
    simp only [nullable, h.missing]
    rfl
  grows := by
    intro d d' hd
    have kept := (h.grows hd).map some
    cases hd with
    | begins =>
      rw [show c.nullable.read .missing = (c.read .missing).map some from rfl, h.missing]
      exact .malformed _
    | _ => exact kept

theorem map_commits (h : Commits c.read) (make : α → β) (of : β → α) :
    Commits (c.map make of).read where
  missing := by
    simp only [map, h.missing]
    rfl
  grows hd := (h.grows hd).map make

end Codec

/-! Records -/

namespace Fields
variable {τ : List Type} {fs : Fields τ} {d d' : Doc}

def Commits : {τ : List Type} → Fields τ → Prop
  | _, nil => True
  | _, cons f rest => Json.Commits f.read ∧ rest.Commits

theorem place_grows (h : fs.Commits) (hd : d.Grows d') (slots : Slots τ) (n : String) :
    Option.Rel Kept (fs.place slots n d) (fs.place slots n d') := by
  induction fs with
  | nil => exact .none
  | cons f rest ih =>
    obtain ⟨hf, hrest⟩ := h
    obtain ⟨slot, slots⟩ := slots
    by_cases hn : f.goesBy n = true
    · simp only [place, hn, if_true]
      cases slot with
      | some a => exact .some (.refl _)
      | none => exact .some ((hf.grows hd).map _)
    · rw [Bool.not_eq_true] at hn
      have rel := ih hrest slots
      rw [place_of_foreign hn, place_of_foreign hn]
      generalize rest.place slots n d = x, rest.place slots n d' = y at rel
      cases rel with
      | none => exact .none
      | some kept => exact .some (kept.map _)

theorem readMember_grows (h : fs.Commits) (hd : d.Grows d') (slots : Slots τ) (n : Name) :
    Kept (fs.readMember slots (n, d)) (fs.readMember slots (n, d')) := by
  cases n with
  | none => exact .malformed _
  | some n =>
    have rel := place_grows h hd slots n
    rw [readMember, readMember, hd.isWhole_eq_false]
    generalize fs.place slots n d = x, fs.place slots n d' = y at rel
    cases rel with
    | none => exact .malformed _
    | some kept => exact kept

theorem kept_readMembers_append (fs : Fields τ) (slots : Slots τ) (ms more : List Member) :
    Kept (fs.readMembers slots ms) (fs.readMembers slots (ms ++ more)) := by
  induction ms generalizing slots with
  | nil => exact .ok _ _
  | cons m ms ih =>
    rw [List.cons_append, readMembers_bind, readMembers_bind]
    exact .bind_congr _ ih

theorem kept_readMembers_last (h : fs.Commits) (hd : d.Grows d') (slots : Slots τ)
    (ms : List Member) (n : Name) :
    Kept (fs.readMembers slots (ms ++ [(n, d)])) (fs.readMembers slots (ms ++ [(n, d')])) := by
  induction ms generalizing slots with
  | nil =>
    rw [List.nil_append, List.nil_append, readMembers_bind, readMembers_bind]
    exact (readMember_grows h hd slots n).bind fun slots _ => .ok _ _
  | cons m ms ih =>
    rw [List.cons_append, List.cons_append, readMembers_bind, readMembers_bind]
    exact .bind_congr _ ih

theorem readItems_nil_cut (expected : String) (fs : Fields τ) (index : Nat) :
    readItems expected fs index [] .cut = .error .malformed := by
  cases fs <;> rfl

theorem kept_readItems_append (expected : String) (fs : Fields τ) (index : Nat)
    (ds more : List Doc) (ending : Ending) :
    Kept (readItems expected fs index ds .cut) (readItems expected fs index (ds ++ more) ending) := by
  induction fs generalizing index ds with
  | nil =>
    cases ds <;> exact .malformed _
  | cons f rest ih =>
    cases ds with
    | nil => exact .malformed _
    | cons d ds =>
      rw [List.cons_append, readItems_cons, readItems_cons]
      exact .bind_congr _ fun a => (ih (index + 1) ds).map _

theorem kept_readItems_last (h : fs.Commits) (hd : d.Grows d') (expected : String) (index : Nat)
    (ds : List Doc) :
    Kept (readItems expected fs index (ds ++ [d]) .cut)
      (readItems expected fs index (ds ++ [d']) .cut) := by
  induction fs generalizing index ds with
  | nil =>
    cases ds <;> exact .malformed _
  | cons f rest ih =>
    obtain ⟨hf, hrest⟩ := h
    cases ds with
    | nil =>
      rw [List.nil_append, List.nil_append, readItems_cons, readItems_cons]
      refine (hf.grows hd).bind fun a _ => ?_
      rw [readItems_nil_cut]
      exact .malformed _
    | cons e ds =>
      rw [List.cons_append, List.cons_append, readItems_cons, readItems_cons]
      exact .bind_congr _ fun a => (ih hrest (index + 1) ds).map _

theorem codec_commits (h : fs.Commits) (title : String) : Json.Commits (fs.codec title).read where
  missing := rfl
  grows := by
    intro d d' hd
    cases hd with
    | begins | misnamed => exact .malformed _
    | items ds more ending => exact kept_readItems_append _ fs 0 ds more ending
    | lastItem ds hd => exact kept_readItems_last h hd _ 0 ds
    | members ms more ending =>
      rw [read_object, read_object]
      exact (kept_readMembers_append fs fs.blank ms more).cut _
    | lastMember ms n hd =>
      rw [read_object, read_object]
      exact (kept_readMembers_last h hd fs.blank ms n).cut _

end Fields

namespace Codec
variable {α : Type} {c : Codec α}

def FirstProblemWins (c : Codec α) : Prop :=
  ∀ (text more : String) (f : Fault), f ≠ .malformed → c.parse text = .error f →
    c.parse (text ++ " " ++ more) = .error f

theorem firstProblemWins_of_commits (h : Commits c.read) : c.FirstProblemWins := by
  intro text more f content hparse
  rw [parse_eq_error content] at hparse ⊢
  exact h.grown (Doc.parse_grows text more) f content hparse

end Codec
end Flowgraph.Json
