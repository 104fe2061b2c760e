import Flowgraph.Proofs.Reach
/-!
# Discovery

In which order a search meets the nodes. To meet what some edges lead to, and then what further edges
lead to, is to meet what all of them lead to. So the listing is its queue, and after it what the
edges of the listed nodes lead to, taken one node after another.
-/
namespace Flowgraph
namespace Unmet
variable {u : Unmet} {es fs : List Edge} {n : Node} {id : String}

theorem meet_append (u : Unmet) (es fs : List Edge) :
    u.meet (es ++ fs) =
      ((u.meet es).1 ++ ((u.meet es).2.meet fs).1, ((u.meet es).2.meet fs).2) := by
  induction es generalizing u with
  | nil => rfl
  | cons e es ih =>
    rw [List.cons_append, meet, meet]
    cases u[e.target]? with
    | none => exact ih u
    | some n => simp only [ih, List.cons_append]

theorem exists_edge_of_mem_meet (hn : n ∈ (u.meet es).1) :
    ∃ e ∈ es, u[e.target]? = some n := by
  induction es generalizing u with
  | nil => cases hn
  | cons e es ih =>
    rw [meet] at hn
    cases hu : u[e.target]? with
    | none =>
      simp only [hu] at hn
      obtain ⟨e', he', h⟩ := ih hn
      exact ⟨e', List.mem_cons_of_mem _ he', h⟩
    | some m =>
      simp only [hu] at hn
      rcases List.mem_cons.mp hn with rfl | hn
      · exact ⟨e, List.mem_cons_self, hu⟩
      · obtain ⟨e', he', h⟩ := ih hn
        rw [Std.TreeMap.getElem?_erase] at h
        split_ifs at h
        exact ⟨e', List.mem_cons_of_mem _ he', h⟩

theorem Keyed.of_mem_meet (hk : u.Keyed) (hn : n ∈ (u.meet es).1) :
    u[n.id]? = some n ∧ es.any (·.target == n.id) = true := by
  obtain ⟨e, he, hu⟩ := exists_edge_of_mem_meet hn
  rw [hk e.target n hu]
  exact ⟨hu, List.any_eq_true.mpr ⟨e, he, beq_self_eq_true _⟩⟩

theorem getElem?_meet (u : Unmet) (es : List Edge) (id : String) :
    (u.meet es).2[id]? = if es.any (·.target == id) then none else u[id]? := by
  induction es generalizing u with
  | nil => rfl
  | cons e es ih =>
    rw [meet, List.any_cons]
    by_cases ht : e.target = id
    · subst ht
      cases hu : u[e.target]? with
      | none => simp [ih, hu]
      | some n => simp [ih]
    · cases hu : u[e.target]? with
      | none => simp [ih, ht]
      | some n => simp [ih, ht, Std.TreeMap.getElem?_erase, Std.LawfulEqCmp.compare_eq_iff_eq]

theorem pairwise_meet (hk : u.Keyed) (es : List Edge) :
    (u.meet es).1.Pairwise fun m n =>
      es.findIdx (·.target == m.id) < es.findIdx (·.target == n.id) := by
  induction es generalizing u with
  | nil => exact .nil
  | cons e es ih =>
    -- Nodes that are met after the first edge are under other ids than its target.
    have later {v : Unmet} (hv : v.Keyed) (hnone : v[e.target]? = none) :
        ∀ m ∈ (v.meet es).1, (e :: es).findIdx (·.target == m.id) =
          es.findIdx (·.target == m.id) + 1 := by
      intro m hm
      have hne : e.target ≠ m.id := by
        intro heq
        have hm := (hv.of_mem_meet hm).1
        rw [← heq, hnone] at hm
        cases hm
      rw [List.findIdx_cons, beq_false_of_ne hne, cond_false]
    have rest {v : Unmet} (hv : v.Keyed) (hnone : v[e.target]? = none) :
        (v.meet es).1.Pairwise fun m n => (e :: es).findIdx (·.target == m.id) <
          (e :: es).findIdx (·.target == n.id) := by
      refine (ih hv).imp_of_mem fun hm hn h => ?_
      rw [later hv hnone _ hm, later hv hnone _ hn]
      exact Nat.succ_lt_succ h
    rw [meet]
    cases hu : u[e.target]? with
    | none => exact rest hk hu
    | some n =>
      have hnone : (u.erase e.target)[e.target]? = none := by simp
      refine List.pairwise_cons.mpr ⟨fun m hm => ?_, rest (hk.erase _) hnone⟩
      rw [later (hk.erase _) hnone m hm, List.findIdx_cons, hk e.target n hu, beq_self_eq_true,
        cond_true]
      exact Nat.succ_pos _

end Unmet

namespace Index
variable {ix : Index} {u : Unmet} {queue : List Node}

/-- A listing is its queue, and then what the edges of the listed nodes lead to. -/
theorem spread_eq (ix : Index) (u : Unmet) (queue : List Node) :
    ix.spread u queue =
      queue ++ (u.meet ((ix.spread u queue).flatMap fun n => ix.outgoing n.id)).1 := by
  induction u, queue using Index.spread.induct ix with
  | case1 u => simp [Index.spread, Unmet.meet]
  | case2 u q queue ih =>
    rw [Index.spread, List.flatMap_cons, Unmet.meet_append]
    conv_lhs => rw [ih]
    simp

theorem spread_induction {P : Node → Prop} (hqueue : ∀ n ∈ queue, P n)
    (hstep : ∀ n, P n → ∀ e ∈ ix.outgoing n.id, ∀ m, u[e.target]? = some m → P m) :
    ∀ n ∈ ix.spread u queue, P n := by
  induction u, queue using Index.spread.induct ix with
  | case1 u =>
    rw [Index.spread]
    exact hqueue
  | case2 u q queue ih =>
    obtain ⟨hq, hqueue⟩ := List.forall_mem_cons.mp hqueue
    rw [Index.spread]
    refine List.forall_mem_cons.mpr ⟨hq, ih ?_ ?_⟩
    · intro n hn
      rcases List.mem_append.mp hn with hn | hn
      · exact hqueue n hn
      · obtain ⟨e, he, hm⟩ := Unmet.exists_edge_of_mem_meet hn
        exact hstep q hq e he n hm
    · intro n hn e he m hm
      rw [Unmet.getElem?_meet] at hm
      split_ifs at hm
      exact hstep n hn e he m hm

end Index

namespace Graph
variable {g : Graph} {ns : List Node} {entry : Node} {id : String}

def leadsTo (g : Graph) (id : String) (n : Node) : Bool :=
  (g.outgoing n.id).any (·.target == id)

/-- Where the first edge to the id is found, if the edges of the nodes are gone through one node
after another: the place of the node, and the place of the edge among those that leave it. -/
def foundIn (g : Graph) (id : String) (ns : List Node) : Nat × Nat :=
  (ns.findIdx (g.leadsTo id),
    ((ns.find? (g.leadsTo id)).elim [] fun n => g.outgoing n.id).findIdx (·.target == id))

def Sooner (p q : Nat × Nat) : Prop := p.1 < q.1 ∨ p.1 = q.1 ∧ p.2 < q.2

theorem foundIn_cons_of_leadsTo {n : Node} (h : g.leadsTo id n = true) (ns : List Node) :
    g.foundIn id (n :: ns) = (0, (g.outgoing n.id).findIdx (·.target == id)) := by
  rw [foundIn, List.findIdx_cons, h, List.find?_cons_of_pos h]
  rfl

theorem foundIn_cons_of_not_leadsTo {n : Node} (h : g.leadsTo id n = false) (ns : List Node) :
    g.foundIn id (n :: ns) = ((g.foundIn id ns).1 + 1, (g.foundIn id ns).2) := by
  rw [foundIn, List.findIdx_cons, h, List.find?_cons_of_neg (by simp [h])]
  rfl

theorem pairwise_foundIn {u : Unmet} (hk : u.Keyed) (ns : List Node) :
    (u.meet (ns.flatMap fun n => g.outgoing n.id)).1.Pairwise fun a b =>
      Sooner (g.foundIn a.id ns) (g.foundIn b.id ns) := by
  induction ns generalizing u with
  | nil => exact .nil
  | cons n ns ih =>
    have first : ∀ m ∈ (u.meet (g.outgoing n.id)).1, g.leadsTo m.id n = true := by
      intro m hm
      exact (hk.of_mem_meet hm).2
    have later : ∀ m ∈ ((u.meet (g.outgoing n.id)).2.meet (ns.flatMap fun n => g.outgoing n.id)).1,
        g.leadsTo m.id n = false := by
      intro m hm
      have hunmet := ((hk.meet _).of_mem_meet hm).1
      rw [Unmet.getElem?_meet] at hunmet
      split_ifs at hunmet with hany
      exact Bool.eq_false_iff.mpr hany
    rw [List.flatMap_cons, Unmet.meet_append, List.pairwise_append]
    refine ⟨?_, ?_, ?_⟩
    · refine (Unmet.pairwise_meet hk _).imp_of_mem fun ha hb h => ?_
      rw [foundIn_cons_of_leadsTo (first _ ha), foundIn_cons_of_leadsTo (first _ hb)]
      exact .inr ⟨rfl, h⟩
    · refine (ih (hk.meet _)).imp_of_mem fun ha hb h => ?_
      rw [foundIn_cons_of_not_leadsTo (later _ ha), foundIn_cons_of_not_leadsTo (later _ hb)]
      unfold Sooner at h ⊢
      omega
    · intro a ha b hb
      rw [foundIn_cons_of_leadsTo (first _ ha), foundIn_cons_of_not_leadsTo (later _ hb)]
      exact .inl (Nat.succ_pos _)

end Graph
end Flowgraph
