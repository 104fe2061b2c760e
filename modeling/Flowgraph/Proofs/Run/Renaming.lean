import Flowgraph.Proofs.Run.Mirror
/-!
# Names and drawings

A run asks of an id only whether it is another one. Labels and edge ids are not asked for at all, and
the mark of an edge only where the edge may leave a condition. So ids can be renamed, as long as they
stay apart, and the rest can be drawn anew: the run is the same, under the new names.
-/
namespace Flowgraph

/-- The ends of an edge under new names. -/
def Edge.rename (f : String → String) (e : Edge) : Edge :=
  { e with source := f e.source, target := f e.target }

def Node.rename (f : String → String) (n : Node) : Node := { n with id := f n.id }

namespace Graph

def rename (g : Graph) (f : String → String) : Graph where
  nodes := g.nodes.map (Node.rename f)
  edges := g.edges.map (Edge.rename f)

def names (g : Graph) : List String :=
  g.nodes.map (·.id) ++ g.edges.flatMap fun e => [e.source, e.target]

def Asks (g : Graph) (id : String) : Prop := ∃ n ∈ g.nodes, n.id = id ∧ n.tag = .condition

instance (g : Graph) (id : String) : Decidable (g.Asks id) :=
  inferInstanceAs (Decidable (∃ n ∈ g.nodes, n.id = id ∧ n.tag = .condition))

/-- The second graph is the first one under new names, drawn otherwise where no run looks. -/
structure Redrawn (f : String → String) (g g' : Graph) : Prop where
  nodes : List.Forall₂ (fun n n' => n'.id = f n.id ∧ n'.kind = n.kind) g.nodes g'.nodes
  edges : List.Forall₂ (fun e e' => e'.source = f e.source ∧ e'.target = f e.target ∧
    (g.Asks e.source → e'.branch = e.branch)) g.edges g'.edges

variable {f : String → String} {g g' : Graph} {level : Level} {n n' : Node} {e e' : Edge}

theorem rename_redrawn (f : String → String) (g : Graph) : Redrawn f g (g.rename f) where
  nodes := List.forall₂_map_right_iff.mpr (List.forall₂_same.mpr fun _ _ => ⟨rfl, rfl⟩)
  edges := List.forall₂_map_right_iff.mpr
    (List.forall₂_same.mpr fun _ _ => ⟨rfl, rfl, fun _ => rfl⟩)

theorem id_mem_names (h : n ∈ g.nodes) : n.id ∈ g.names :=
  List.mem_append_left _ (List.mem_map_of_mem h)

theorem ends_mem_names (h : e ∈ g.edges) : e.source ∈ g.names ∧ e.target ∈ g.names := by
  constructor
  · exact List.mem_append_right _ (List.mem_flatMap.mpr ⟨e, h, by simp⟩)
  · exact List.mem_append_right _ (List.mem_flatMap.mpr ⟨e, h, by simp⟩)

/-- The new names tell apart what the old ones told apart. -/
def Distinguishes (g : Graph) (f : String → String) : Prop :=
  ∀ a ∈ g.names, ∀ b ∈ g.names, f a = f b → a = b

instance (g : Graph) (f : String → String) : Decidable (g.Distinguishes f) :=
  inferInstanceAs (Decidable (∀ a ∈ g.names, ∀ b ∈ g.names, f a = f b → a = b))

theorem Distinguishes.beq (h : g.Distinguishes f) {a b : String} (ha : a ∈ g.names)
    (hb : b ∈ g.names) : (f a == f b) = (a == b) := by
  rw [Bool.eq_iff_iff, beq_iff_eq, beq_iff_eq]
  exact ⟨h a ha b hb, congrArg f⟩

structure NodeRedrawn (f : String → String) (g : Graph) (n n' : Node) : Prop where
  mem : n ∈ g.nodes
  id : n'.id = f n.id
  kind : n'.kind = n.kind

structure EdgeRedrawn (f : String → String) (g : Graph) (n : Node) (e e' : Edge) : Prop where
  mem : e ∈ g.edges
  target : e'.target = f e.target
  branch : n.tag = .condition → e'.branch = e.branch

namespace Redrawn

theorem forall₂_nodes (h : Redrawn f g g') : List.Forall₂ (NodeRedrawn f g) g.nodes g'.nodes := by
  have hmem := (List.forall₂_and_left _ _).mpr ⟨fun _ hn => hn, h.nodes⟩
  exact hmem.imp fun _ _ ⟨hn, hid, hkind⟩ => ⟨hn, hid, hkind⟩

theorem forall₂_outgoing (h : Redrawn f g g') (hf : g.Distinguishes f)
    (hn : NodeRedrawn f g n n') :
    List.Forall₂ (EdgeRedrawn f g n) (g.outgoing n.id) (g'.outgoing n'.id) := by
  have hall := (List.forall₂_and_left _ _).mpr ⟨fun e (he : e ∈ g.edges) => he, h.edges⟩
  have hleaves : ∀ e ∈ g.edges, ∀ e' : Edge, e'.source = f e.source →
      (e.source == n.id) = (e'.source == n'.id) := by
    intro e he e' hs
    rw [hs, hn.id, hf.beq (ends_mem_names he).1 (id_mem_names hn.mem)]
  have hleaving := rel_filter (fun e e' ⟨he, hs, _⟩ => hleaves e he e' hs) hall
  have hsource : ∀ e ∈ g.outgoing n.id, e.source = n.id := by
    intro e he
    simpa using (List.mem_filter.mp he).2
  refine ((List.forall₂_and_left _ _).mpr ⟨hsource, hleaving⟩).imp ?_
  rintro e e' ⟨hs, he, -, ht, hb⟩
  exact ⟨he, ht, fun htag => hb ⟨n, hn.mem, hs.symm, htag⟩⟩

theorem rel_target? (h : Redrawn f g g') (hf : g.Distinguishes f) (he : EdgeRedrawn f g n e e') :
    Option.Rel (NodeRedrawn f g) (g.target? e) (g'.target? e') := by
  refine rel_find? ?_ h.forall₂_nodes
  intro m m' hm
  rw [hm.id, he.target, hf.beq (id_mem_names hm.mem) (ends_mem_names he.mem).2]

theorem rel_branchEdge? (h : Redrawn f g g') (hf : g.Distinguishes f) (hn : NodeRedrawn f g n n')
    (htag : n.tag = .condition) (b : Bool) :
    Option.Rel (EdgeRedrawn f g n) (g.branchEdge? n b) (g'.branchEdge? n' b) := by
  have hout := h.forall₂_outgoing hf hn
  have hmarked : Option.Rel (EdgeRedrawn f g n) ((g.outgoing n.id).find? (·.branch = some b))
      ((g'.outgoing n'.id).find? (·.branch = some b)) := by
    refine rel_find? ?_ hout
    intro e e' he
    rw [he.branch htag]
  cases b with
  | true => exact rel_or hmarked (rel_head? hout)
  | false => exact rel_or hmarked (rel_or (rel_getElem? hout 1) (rel_head? hout))

theorem rel_leave? (h : Redrawn f g g') (hf : g.Distinguishes f) (hn : NodeRedrawn f g n n')
    (level : Level) (w : World) :
    Option.Rel (EdgeRedrawn f g n) (g.leave? level n w) (g'.leave? level n' w) := by
  have hfirst := rel_head? (h.forall₂_outgoing hf hn)
  unfold leave?
  rw [hn.kind]
  cases hk : n.kind with
  | entry => exact hfirst
  | action => exact hfirst
  | condition p => exact h.rel_branchEdge? hf hn (congrArg Kind.tag hk) _
  | loop => exact hfirst
  | exit => exact .none

theorem mirrors (h : Redrawn f g g') (hf : g.Distinguishes f) (level : Level) :
    Mirrors g g' level level (NodeRedrawn f g) (fun w w' => w' = w) := by
  apply Mirrors.of_nodes
  · rw [entryNode?_eq_find?, entryNode?_eq_find?]
    refine rel_find? ?_ h.forall₂_nodes
    intro n n' hn
    rw [Node.tag, Node.tag, hn.kind]
  · intro n n' w hn
    rw [follow?_eq_leave?, follow?_eq_leave?]
    apply rel_bind (h.rel_leave? hf hn level w)
    intro e e' he
    exact h.rel_target? hf he
  · intro n n' hn
    simp only [Node.action?, hn.kind]

theorem run (h : Redrawn f g g') (hf : g.Distinguishes f) (level : Level) (ceiling : Nat) :
    g'.run level ceiling =
      { g.run level ceiling with visited := (g.run level ceiling).visited.map f } :=
  (h.mirrors hf level).run (fun _ _ hn => hn.id) ceiling

end Redrawn
end Graph
end Flowgraph
