import Flowgraph.Proofs.Run.Moment
import Mathlib.Data.List.Forall2
/-!
# Mirrored runs

Two runs, of two graphs and on two levels, go in step when their nodes and their worlds correspond: at
the start, along every edge that is taken, and through every action. Then the nodes that they visit
correspond one by one, and so do the worlds that they leave.
-/
namespace Flowgraph

section Related
variable {α β γ δ : Type} {R : α → β → Prop} {S : γ → δ → Prop}

theorem rel_cases {a : Option α} {a' : Option β} (h : Option.Rel R a a') :
    a = none ∧ a' = none ∨ ∃ x x', a = some x ∧ a' = some x' ∧ R x x' := by
  cases h with
  | none => exact Or.inl ⟨rfl, rfl⟩
  | some h => exact Or.inr ⟨_, _, rfl, rfl, h⟩

theorem rel_refl {R : α → α → Prop} (hR : ∀ x, R x x) (a : Option α) : Option.Rel R a a := by
  cases a with
  | none => exact .none
  | some x => exact .some (hR x)

theorem rel_map {f : α → β} (hf : ∀ x, R x (f x)) (a : Option α) : Option.Rel R a (a.map f) := by
  cases a with
  | none => exact .none
  | some x => exact .some (hf x)

theorem rel_or {a b : Option α} {a' b' : Option β} (ha : Option.Rel R a a')
    (hb : Option.Rel R b b') : Option.Rel R (a.or b) (a'.or b') := by
  cases ha with
  | none => exact hb
  | some h => exact .some h

theorem rel_bind {a : Option α} {a' : Option β} {f : α → Option γ} {f' : β → Option δ}
    (ha : Option.Rel R a a') (hf : ∀ x x', R x x' → Option.Rel S (f x) (f' x')) :
    Option.Rel S (a.bind f) (a'.bind f') := by
  cases ha with
  | none => exact .none
  | some h => exact hf _ _ h

theorem rel_getElem? {l : List α} {l' : List β} (h : List.Forall₂ R l l') (i : Nat) :
    Option.Rel R l[i]? l'[i]? := by
  induction h generalizing i with
  | nil => exact .none
  | cons hab _ ih =>
    cases i with
    | zero => exact .some hab
    | succ i => exact ih i

theorem rel_head? {l : List α} {l' : List β} (h : List.Forall₂ R l l') :
    Option.Rel R l.head? l'.head? := by
  rw [List.head?_eq_getElem?, List.head?_eq_getElem?]
  exact rel_getElem? h 0

theorem rel_filter {p : α → Bool} {q : β → Bool} {l : List α} {l' : List β}
    (hpq : ∀ a b, R a b → p a = q b) (h : List.Forall₂ R l l') :
    List.Forall₂ R (l.filter p) (l'.filter q) := by
  refine List.rel_filter ?_ h
  intro a b hab
  exact iff_of_eq (congrArg (· = true) (hpq a b hab))

theorem rel_find? {p : α → Bool} {q : β → Bool} {l : List α} {l' : List β}
    (hpq : ∀ a b, R a b → p a = q b) (h : List.Forall₂ R l l') :
    Option.Rel R (l.find? p) (l'.find? q) := by
  rw [← List.head?_filter, ← List.head?_filter]
  exact rel_head? (rel_filter hpq h)

theorem map_eq_of_forall₂ {φ : α → γ} {ψ : β → γ} {l : List α} {l' : List β}
    (hφ : ∀ a b, R a b → φ a = ψ b) (h : List.Forall₂ R l l') : l.map φ = l'.map ψ := by
  induction h with
  | nil => rfl
  | cons hab _ ih => rw [List.map_cons, List.map_cons, hφ _ _ hab, ih]

end Related

/-- The nodes that come next correspond, and so do the worlds. -/
structure Stage.Mirrors (N : Node → Node → Prop) (W : World → World → Prop) (s s' : Stage) :
    Prop where
  next : Option.Rel N s.next s'.next
  world : W s.world s'.world

namespace Graph
variable {g g' : Graph} {level level' : Level} {N : Node → Node → Prop} {W : World → World → Prop}

/-- Nodes and worlds that correspond are all that control and actions notice of two runs. -/
structure Mirrors (g g' : Graph) (level level' : Level) (N : Node → Node → Prop)
    (W : World → World → Prop) : Prop where
  entry : Option.Rel N g.entryNode? g'.entryNode?
  start : W level.start level'.start
  terminal : ∀ w w', W w w' → w'.isTerminal = w.isTerminal
  follow : ∀ n n' w w', N n n' → W w w' →
    Option.Rel N (g.follow? level n w) (g'.follow? level' n' w')
  action : ∀ n n', N n n' → n'.action? = n.action?
  act : ∀ w w' a, W w w' → W (w.act level a) (w'.act level' a)
  callOff : ∀ w w', W w w' → W (w.markFailed .infiniteLoop) (w'.markFailed .infiniteLoop)

namespace Mirrors
variable {s s' : Stage} {n n' : Node} {w w' : World}

/-- On one level, it is enough that control and actions take corresponding nodes alike. -/
theorem of_nodes (hentry : Option.Rel N g.entryNode? g'.entryNode?)
    (hfollow : ∀ n n' w, N n n' → Option.Rel N (g.follow? level n w) (g'.follow? level n' w))
    (haction : ∀ n n', N n n' → n'.action? = n.action?) :
    Mirrors g g' level level N (fun w w' => w' = w) where
  entry := hentry
  start := rfl
  terminal := by
    rintro w w' rfl
    rfl
  follow := by
    rintro n n' w w' hn rfl
    exact hfollow n n' w' hn
  action := haction
  act := by
    rintro w w' a rfl
    rfl
  callOff := by
    rintro w w' rfl
    rfl

theorem work (h : Mirrors g g' level level' N W) (hn : N n n') (hw : W w w') :
    W (n.work level w) (n'.work level' w') := by
  unfold Node.work
  rw [h.action n n' hn]
  cases n.action? with
  | none => exact hw
  | some a => exact h.act w w' a hw

theorem current (h : Mirrors g g' level level' N W) (hs : s.Mirrors N W s') :
    Option.Rel N s.current? s'.current? := by
  unfold Stage.current?
  rw [h.terminal _ _ hs.world]
  split
  · exact .none
  · exact hs.next

theorem advance (h : Mirrors g g' level level' N W) (hs : s.Mirrors N W s') :
    (g.advance level s).Mirrors N W (g'.advance level' s') := by
  rcases rel_cases (h.current hs) with ⟨hn, hn'⟩ | ⟨n, n', hn, hn', hnode⟩
  · rw [advance_of_over hn, advance_of_over hn']
    exact hs
  · rw [advance_of_current hn, advance_of_current hn']
    exact ⟨h.follow n n' _ _ hnode hs.world, h.work hnode hs.world⟩

theorem stage (h : Mirrors g g' level level' N W) (k : Nat) :
    (g.stage level k).Mirrors N W (g'.stage level' k) := by
  induction k with
  | zero => exact ⟨h.entry, h.start⟩
  | succ k ih =>
    rw [stage_succ, stage_succ]
    exact h.advance ih

theorem trail (h : Mirrors g g' level level' N W) (k : Nat) :
    List.Forall₂ N (g.trail level k) (g'.trail level' k) := by
  refine List.rel_filterMap (R := fun i j => i = j) ?_ (List.forall₂_same.mpr fun _ _ => rfl)
  rintro i _ rfl
  exact h.current (h.stage i)

theorem length_trail (h : Mirrors g g' level level' N W) (k : Nat) :
    (g'.trail level' k).length = (g.trail level k).length :=
  (h.trail k).length_eq.symm

theorem finalWorld (h : Mirrors g g' level level' N W) (ceiling : Nat) :
    W (g.finalWorld level ceiling) (g'.finalWorld level' ceiling) := by
  have hw := (h.stage ceiling).world
  unfold Graph.finalWorld
  rw [h.length_trail]
  split
  · exact h.callOff _ _ hw
  · exact hw

/-- Two runs through the same worlds have the same report, but for the ids of what they visit. -/
theorem run (h : Mirrors g g' level level N fun w w' => w' = w) {f : String → String}
    (hid : ∀ n n', N n n' → n'.id = f n.id) (ceiling : Nat) :
    g'.run level ceiling =
      { g.run level ceiling with visited := (g.run level ceiling).visited.map f } := by
  rcases rel_cases h.entry with ⟨he, he'⟩ | ⟨entry, entry', he, he', -⟩
  · rw [run_of_no_entry he, run_of_no_entry he']
    rfl
  · have hids : (g'.trail level ceiling).map (·.id) =
        ((g.trail level ceiling).map (·.id)).map f := by
      rw [List.map_map]
      exact (map_eq_of_forall₂ (fun n n' hn => (hid n n' hn).symm) (h.trail ceiling)).symm
    rw [run_of_entry he, run_of_entry he', h.finalWorld, h.length_trail, hids]

end Mirrors
end Graph
end Flowgraph
