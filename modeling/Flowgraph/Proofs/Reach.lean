import Flowgraph.Proofs.Run.Stage
import Flowgraph.Reach
import Mathlib.Tactic.SplitIfs
/-!
# Reach

The listing of a graph is closed: an edge that leaves a listed id and leads to a declared one leads
to a listed one. What is not listed does not matter to it, so a search that knows the listed ids
only gives the same listing.
-/
namespace Flowgraph
namespace Unmet
variable {u v : Unmet} {es : List Edge} {n : Node} {id : String} {ids : List String}

/-- Each unmet node is found under its own id. -/
def Keyed (u : Unmet) : Prop := ∀ (id : String) (n : Node), u[id]? = some n → n.id = id

theorem Keyed.erase (h : u.Keyed) (id : String) : Keyed (u.erase id) := by
  intro id' n hn
  rw [Std.TreeMap.getElem?_erase] at hn
  split_ifs at hn
  exact h id' n hn

theorem Keyed.meet (h : u.Keyed) (es : List Edge) : Keyed (u.meet es).2 := by
  induction es generalizing u with
  | nil => exact h
  | cons e es ih =>
    unfold Unmet.meet
    split
    · exact ih h
    · exact ih (h.erase e.target)

theorem mem_meet_of_edge {e : Edge} (he : e ∈ es) (hn : u[e.target]? = some n) :
    n ∈ (u.meet es).1 := by
  induction es generalizing u with
  | nil => cases he
  | cons e' es ih =>
    unfold meet
    by_cases ht : e'.target = e.target
    · simp only [ht, hn]
      exact List.mem_cons_self
    · have he' : e ∈ es := by
        rcases List.mem_cons.mp he with rfl | he
        · exact absurd rfl ht
        · exact he
      split
      · exact ih he' hn
      · refine List.mem_cons_of_mem _ (ih he' ?_)
        rw [Std.TreeMap.getElem?_erase,
          if_neg (by simpa [Std.LawfulEqCmp.compare_eq_iff_eq] using ht)]
        exact hn

theorem met_or_unmet (es : List Edge) (hn : u[id]? = some n) :
    n ∈ (u.meet es).1 ∨ (u.meet es).2[id]? = some n := by
  induction es generalizing u with
  | nil => exact Or.inr hn
  | cons e es ih =>
    unfold meet
    split
    · exact ih hn
    · next n' hn' =>
      by_cases ht : e.target = id
      · subst ht
        obtain rfl : n' = n := Option.some.inj (hn'.symm.trans hn)
        exact Or.inl List.mem_cons_self
      · have hrest : (u.erase e.target)[id]? = some n := by
          rw [Std.TreeMap.getElem?_erase,
            if_neg (by simpa [Std.LawfulEqCmp.compare_eq_iff_eq] using ht)]
          exact hn
        rcases ih hrest with hm | hm
        · exact Or.inl (List.mem_cons_of_mem _ hm)
        · exact Or.inr hm

/-- `v` holds the nodes of `u` that go by one of the ids. -/
def Within (ids : List String) (u v : Unmet) : Prop :=
  ∀ id, v[id]? = if id ∈ ids then u[id]? else none

theorem Within.erase (h : Within ids u v) (id : String) :
    Within ids (u.erase id) (v.erase id) := by
  intro id'
  rw [Std.TreeMap.getElem?_erase, Std.TreeMap.getElem?_erase, h id']
  split_ifs <;> rfl

theorem Within.meet (h : Within ids u v)
    (hes : ∀ e ∈ es, ∀ n, u[e.target]? = some n → e.target ∈ ids) :
    (v.meet es).1 = (u.meet es).1 ∧ Within ids (u.meet es).2 (v.meet es).2 := by
  induction es generalizing u v with
  | nil => exact ⟨rfl, h⟩
  | cons e es ih =>
    have hv : v[e.target]? = u[e.target]? := by
      rw [h e.target]
      split_ifs with hi
      · rfl
      · cases hu : u[e.target]? with
        | none => rfl
        | some n => exact absurd (hes e List.mem_cons_self n hu) hi
    unfold Unmet.meet
    rw [hv]
    cases hu : u[e.target]? with
    | none => exact ih h fun e' he' => hes e' (List.mem_cons_of_mem _ he')
    | some n =>
      have hrest : ∀ e' ∈ es, ∀ n', (u.erase e.target)[e'.target]? = some n' → e'.target ∈ ids := by
        intro e' he' n' hn'
        rw [Std.TreeMap.getElem?_erase] at hn'
        split_ifs at hn'
        exact hes e' (List.mem_cons_of_mem _ he') n' hn'
      obtain ⟨hm, hw⟩ := ih (h.erase e.target) hrest
      exact ⟨congrArg (n :: ·) hm, hw⟩

end Unmet

namespace Index
variable {ix ix' : Index} {u v : Unmet} {queue : List Node} {n m : Node} {ids : List String}

theorem mem_spread_of_mem (hn : n ∈ queue) : n ∈ ix.spread u queue := by
  fun_induction Index.spread ix u queue with
  | case1 => cases hn
  | case2 u q queue ih =>
    rcases List.mem_cons.mp hn with rfl | hn
    · exact List.mem_cons_self
    · exact List.mem_cons_of_mem _ (ih (List.mem_append_left _ hn))

theorem mem_spread_of_edge {e : Edge} (hn : n ∈ ix.spread u queue)
    (he : e ∈ ix.outgoing n.id) (hm : u[e.target]? = some m) : m ∈ ix.spread u queue := by
  fun_induction Index.spread ix u queue with
  | case1 => cases hn
  | case2 u q queue ih =>
    refine List.mem_cons_of_mem _ ?_
    rcases List.mem_cons.mp hn with rfl | hn
    · exact mem_spread_of_mem (List.mem_append_right _ (Unmet.mem_meet_of_edge he hm))
    · rcases Unmet.met_or_unmet (ix.outgoing q.id) hm with hmet | hrest
      · exact mem_spread_of_mem (List.mem_append_right _ hmet)
      · exact ih hn hrest

/-- A search that knows only the ids that are listed lists the same. -/
theorem spread_within (hout : ∀ n ∈ ix.spread u queue, ix'.outgoing n.id = ix.outgoing n.id)
    (hids : ∀ n ∈ ix.spread u queue, n.id ∈ ids) (hk : u.Keyed) (h : Unmet.Within ids u v) :
    ix'.spread v queue = ix.spread u queue := by
  induction u, queue using Index.spread.induct ix generalizing v with
  | case1 u => simp only [Index.spread]
  | case2 u q queue ih =>
    rw [Index.spread] at hout hids ⊢
    rw [Index.spread, hout q List.mem_cons_self]
    have hes : ∀ e ∈ ix.outgoing q.id, ∀ n, u[e.target]? = some n → e.target ∈ ids := by
      intro e he n hn
      rw [← hk e.target n hn]
      have hmet := Unmet.mem_meet_of_edge he hn
      exact hids n (List.mem_cons_of_mem _ (mem_spread_of_mem (List.mem_append_right _ hmet)))
    obtain ⟨hmet, hrest⟩ := h.meet hes
    rw [hmet]
    exact congrArg (q :: ·) (ih (fun n hn => hout n (List.mem_cons_of_mem _ hn))
      (fun n hn => hids n (List.mem_cons_of_mem _ hn)) (hk.meet _) hrest)

theorem getElem?_nodes_ofGraph (g : Graph) (id : String) : (ofGraph g).nodes[id]? = g.node? id :=
  node?_ofGraph g id

theorem keyed_nodes_ofGraph (g : Graph) : Unmet.Keyed (ofGraph g).nodes := by
  intro id n hn
  rw [getElem?_nodes_ofGraph] at hn
  exact Graph.id_of_node? hn

end Index

namespace Graph
variable {g : Graph} {ids : List String} {id : String} {n m entry : Node} {e : Edge}

/-- The ids that are listed. -/
def reachIds (g : Graph) : List String := g.reach.map (·.id)

theorem reach_of_entry (he : g.entryNode? = some entry) :
    g.reach = (Index.ofGraph g).spread ((Index.ofGraph g).nodes.erase entry.id) [entry] := by
  simp only [reach, Index.reach, Index.entryNode?_ofGraph, he]

theorem reach_of_no_entry (he : g.entryNode? = none) : g.reach = [] := by
  simp only [reach, Index.reach, Index.entryNode?_ofGraph, he]

theorem head?_reach (g : Graph) : g.reach.head? = g.entryNode? := by
  cases he : g.entryNode? with
  | none => rw [reach_of_no_entry he]; rfl
  | some entry => rw [reach_of_entry he, Index.spread]; rfl

theorem entry_mem_reach (he : g.entryNode? = some entry) : entry ∈ g.reach := by
  rw [reach_of_entry he]
  exact Index.mem_spread_of_mem List.mem_cons_self

/-- No edge to a declared node leaves the ids. -/
def Closed (g : Graph) (ids : List String) : Prop :=
  ∀ id ∈ ids, ∀ e ∈ g.outgoing id, ∀ n, g.node? e.target = some n → e.target ∈ ids

theorem closed_reachIds (g : Graph) : g.Closed g.reachIds := by
  intro id hid e he m hm
  obtain ⟨n, hn, rfl⟩ := List.mem_map.mp hid
  cases hentry : g.entryNode? with
  | none =>
    rw [reach_of_no_entry hentry] at hn
    cases hn
  | some entry =>
    by_cases ht : entry.id = e.target
    · exact List.mem_map.mpr ⟨entry, entry_mem_reach hentry, ht⟩
    · refine List.mem_map.mpr ⟨m, ?_, id_of_node? hm⟩
      rw [reach_of_entry hentry] at hn ⊢
      refine Index.mem_spread_of_edge hn (by rwa [Index.outgoing_ofGraph]) ?_
      rw [Std.TreeMap.getElem?_erase,
        if_neg (by simpa [Std.LawfulEqCmp.compare_eq_iff_eq] using ht),
        Index.getElem?_nodes_ofGraph, hm]

/-- A graph without the nodes of other ids, and without the edges that leave such. -/
def restrict (g : Graph) (ids : List String) : Graph where
  nodes := g.nodes.filter fun n => decide (n.id ∈ ids)
  edges := g.edges.filter fun e => decide (e.source ∈ ids)

theorem node?_restrict (g : Graph) (ids : List String) (id : String) :
    (g.restrict ids).node? id = if id ∈ ids then g.node? id else none := by
  simp only [node?, restrict, List.find?_filter]
  split_ifs with hi
  · congr 1
    funext n
    by_cases hn : n.id = id <;> simp [hn, hi]
  · rw [List.find?_eq_none]
    intro n _ hn
    simp only [decide_eq_true_eq, beq_iff_eq] at hn
    exact hi (hn.2 ▸ hn.1)

theorem outgoing_restrict (g : Graph) (hid : id ∈ ids) :
    (g.restrict ids).outgoing id = g.outgoing id := by
  simp only [outgoing, restrict, List.filter_filter]
  congr 1
  funext e
  by_cases he : e.source = id <;> simp [he, hid]

theorem find?_filter_of_find? {α : Type} {l : List α} {p q : α → Bool} {a : α}
    (hp : l.find? p = some a) (hq : q a = true) : (l.filter q).find? p = some a := by
  obtain ⟨ha, before, after, rfl, hbefore⟩ := List.find?_eq_some_iff_append.mp hp
  have hnone : (before.filter q).find? p = none := by
    rw [List.find?_eq_none]
    intro x hx
    simpa using hbefore x (List.mem_filter.mp hx).1
  rw [List.filter_append, List.find?_append, hnone, Option.none_or, List.filter_cons_of_pos hq,
    List.find?_cons_of_pos ha]

theorem entryNode?_restrict (h : ∀ n, g.entryNode? = some n → n.id ∈ ids) :
    (g.restrict ids).entryNode? = g.entryNode? := by
  cases he : g.entryNode? with
  | none => exact entryNode?_eq_none_of_subset (fun n hn => (List.mem_filter.mp hn).1) he
  | some entry =>
    have hid := h entry he
    rw [entryNode?_eq_find?] at he ⊢
    exact find?_filter_of_find? he (decide_eq_true hid)

theorem entry_id_mem_reachIds (he : g.entryNode? = some entry) : entry.id ∈ g.reachIds :=
  List.mem_map_of_mem (entry_mem_reach he)

theorem reach_within {g' : Graph} (hentry : g'.entryNode? = g.entryNode?)
    (hids : ∀ n ∈ g.reach, n.id ∈ ids)
    (hout : ∀ n ∈ g.reach, g'.outgoing n.id = g.outgoing n.id)
    (hnode : ∀ id, g'.node? id = if id ∈ ids then g.node? id else none) :
    g'.reach = g.reach := by
  cases he : g.entryNode? with
  | none => rw [reach_of_no_entry he, reach_of_no_entry (hentry.trans he)]
  | some entry =>
    rw [reach_of_entry he] at hids hout ⊢
    rw [reach_of_entry (hentry.trans he)]
    refine Index.spread_within ?_ hids
      ((Index.keyed_nodes_ofGraph g).erase entry.id) (Unmet.Within.erase ?_ entry.id)
    · intro n hn
      rw [Index.outgoing_ofGraph, Index.outgoing_ofGraph, hout n hn]
    · intro id
      rw [Index.getElem?_nodes_ofGraph, Index.getElem?_nodes_ofGraph, hnode]

theorem reach_restrict (g : Graph) : (g.restrict g.reachIds).reach = g.reach := by
  have hids : ∀ n ∈ g.reach, n.id ∈ g.reachIds := fun n hn => List.mem_map_of_mem hn
  apply reach_within
  · exact entryNode?_restrict fun n hn => entry_id_mem_reachIds hn
  · exact hids
  · intro n hn
    exact outgoing_restrict g (hids n hn)
  · exact node?_restrict g g.reachIds

end Graph
end Flowgraph
