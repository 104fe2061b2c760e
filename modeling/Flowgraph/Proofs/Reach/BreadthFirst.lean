import Flowgraph.Proofs.Reach.Discovery
import Flowgraph.Proofs.Validation.Survey
import Mathlib.Order.Lattice.Nat
/-!
# Breadth first

The listing of a graph holds the ids that edges lead to from the entry node, the nearer ones first.
What is found at the same distance stands in the order in which the edges of the listed nodes lead to
it.
-/
namespace Flowgraph
namespace Graph
variable {g : Graph} {a b id : String} {entry n m : Node} {e : Edge} {k : Nat}

/-- An edge leads from one id to the other, where a node is declared. -/
def Leads (g : Graph) (a b : String) : Prop :=
  ∃ e ∈ g.edges, e.source = a ∧ e.target = b ∧ g.Declares b

/-- The ids that so many edges lead to, one after another. -/
inductive Route (g : Graph) (a : String) : Nat → String → Prop where
  | here : Route g a 0 a
  | along {k b c} : Route g a k b → g.Leads b c → Route g a (k + 1) c

/-- The length of a shortest route. -/
noncomputable def distance (g : Graph) (a b : String) : Nat := sInf {k | g.Route a k b}

theorem leads_of_outgoing (he : e ∈ g.outgoing a) (hm : g.node? e.target = some m) :
    g.Leads a e.target := by
  obtain ⟨hedge, hsource⟩ := List.mem_filter.mp he
  exact ⟨e, hedge, beq_iff_eq.mp hsource, rfl, m, mem_of_node? hm, id_of_node? hm⟩

theorem Leads.outgoing (h : g.Leads a b) :
    ∃ e ∈ g.outgoing a, e.target = b ∧ ∃ m, g.node? b = some m := by
  obtain ⟨e, hedge, rfl, rfl, declared⟩ := h
  exact ⟨e, List.mem_filter.mpr ⟨hedge, beq_self_eq_true _⟩, rfl, exists_node?_of_declares declared⟩

/-! Distances -/

theorem Route.shortest (h : g.Route a k b) : g.Route a (g.distance a b) b := by
  have : {k | g.Route a k b}.Nonempty := ⟨k, h⟩
  exact Nat.sInf_mem this

theorem Route.distance_le (h : g.Route a k b) : g.distance a b ≤ k := Nat.sInf_le h

theorem distance_self (g : Graph) (a : String) : g.distance a a = 0 :=
  Nat.le_zero.mp Route.here.distance_le

theorem Route.distance_le_succ (h : g.Route a k b) {c : String} (leads : g.Leads b c) :
    g.distance a c ≤ g.distance a b + 1 :=
  (h.shortest.along leads).distance_le

theorem Route.exists_last (h : g.Route a k b) (hne : a ≠ b) :
    ∃ c j, g.Route a j c ∧ g.Leads c b ∧ g.distance a b = g.distance a c + 1 := by
  have shortest := h.shortest
  cases hd : g.distance a b with
  | zero =>
    rw [hd] at shortest
    cases shortest
    exact absurd rfl hne
  | succ j =>
    rw [hd] at shortest
    cases shortest with
    | @along _ c _ route leads =>
      refine ⟨c, j, route, leads, ?_⟩
      have := route.distance_le
      have := route.distance_le_succ leads
      omega

/-! The listing -/

/-- What a search from the entry node has not met at first. -/
def unmet (g : Graph) (entry : Node) : Unmet := (Index.ofGraph g).nodes.erase entry.id

theorem getElem?_unmet (g : Graph) (entry : Node) (id : String) :
    (g.unmet entry)[id]? = if entry.id = id then none else g.node? id := by
  rw [unmet, Std.TreeMap.getElem?_erase, Index.getElem?_nodes_ofGraph]
  simp only [Std.LawfulEqCmp.compare_eq_iff_eq]

theorem keyed_unmet (g : Graph) (entry : Node) : (g.unmet entry).Keyed :=
  (Index.keyed_nodes_ofGraph g).erase entry.id

def found (g : Graph) (entry : Node) : List Node :=
  ((g.unmet entry).meet (g.reach.flatMap fun n => g.outgoing n.id)).1

theorem reach_eq_cons (he : g.entryNode? = some entry) : g.reach = entry :: g.found entry := by
  conv_lhs => rw [reach_of_entry he, Index.spread_eq, ← reach_of_entry he]
  simp only [Index.outgoing_ofGraph]
  rfl

theorem of_mem_found (hn : n ∈ g.found entry) : entry.id ≠ n.id ∧ g.node? n.id = some n := by
  have hunmet := ((keyed_unmet g entry).of_mem_meet hn).1
  rw [getElem?_unmet] at hunmet
  split_ifs at hunmet with hid
  exact ⟨hid, hunmet⟩

theorem pairwise_found (g : Graph) (entry : Node) :
    (g.found entry).Pairwise fun a b =>
      Sooner (g.foundIn a.id g.reach) (g.foundIn b.id g.reach) :=
  pairwise_foundIn (keyed_unmet g entry) g.reach

theorem nodup_reachIds (he : g.entryNode? = some entry) : g.reachIds.Nodup := by
  rw [reachIds, reach_eq_cons he, List.map_cons, List.nodup_cons]
  constructor
  · intro hmem
    obtain ⟨n, hn, hid⟩ := List.mem_map.mp hmem
    exact (of_mem_found hn).1 hid.symm
  · refine List.pairwise_map.mpr ((pairwise_found g entry).imp fun h heq => ?_)
    rw [heq] at h
    unfold Sooner at h
    omega

theorem reach_induction {P : Node → Prop} (he : g.entryNode? = some entry) (hentry : P entry)
    (hstep : ∀ n, P n → ∀ e ∈ g.outgoing n.id, ∀ m, g.node? e.target = some m → P m) :
    ∀ n ∈ g.reach, P n := by
  rw [reach_of_entry he]
  apply Index.spread_induction
  · intro n hn
    rwa [List.mem_singleton.mp hn]
  · intro n hn e hedge m hm
    change (g.unmet entry)[e.target]? = some m at hm
    rw [getElem?_unmet] at hm
    split_ifs at hm
    exact hstep n hn e (by rwa [← Index.outgoing_ofGraph]) m hm

theorem mem_reachIds_iff (he : g.entryNode? = some entry) :
    id ∈ g.reachIds ↔ ∃ k, g.Route entry.id k id := by
  constructor
  · intro hid
    obtain ⟨n, hn, rfl⟩ := List.mem_map.mp hid
    refine reach_induction (P := fun n => ∃ k, g.Route entry.id k n.id) he ⟨0, .here⟩ ?_ n hn
    rintro n ⟨k, route⟩ e hedge m hm
    have leads := leads_of_outgoing hedge hm
    rw [← id_of_node? hm] at leads
    exact ⟨k + 1, route.along leads⟩
  · rintro ⟨k, route⟩
    induction route with
    | here => exact entry_id_mem_reachIds he
    | along _ leads ih =>
      obtain ⟨e, hedge, rfl, m, hm⟩ := leads.outgoing
      exact closed_reachIds g _ ih e hedge m hm

theorem leadsTo_iff (hm : g.node? id = some m) : g.leadsTo id n = true ↔ g.Leads n.id id := by
  rw [leadsTo, List.any_eq_true]
  constructor
  · rintro ⟨e, hedge, ht⟩
    obtain rfl := beq_iff_eq.mp ht
    exact leads_of_outgoing hedge hm
  · intro leads
    obtain ⟨e, hedge, ht, -⟩ := leads.outgoing
    exact ⟨e, hedge, beq_iff_eq.mpr ht⟩

theorem exists_finder (hn : n ∈ g.found entry) :
    ∃ f, g.reach[(g.foundIn n.id g.reach).1]? = some f ∧ g.Leads f.id n.id := by
  have hany := ((keyed_unmet g entry).of_mem_meet hn).2
  rw [List.any_flatMap, List.any_eq_true] at hany
  have hlt := List.findIdx_lt_length_of_exists hany
  refine ⟨_, List.getElem?_eq_getElem hlt, (leadsTo_iff (of_mem_found hn).2).mp ?_⟩
  exact List.findIdx_getElem

theorem foundIn_le (hm : g.node? id = some m) (hn : g.reach[k]? = some n) (h : g.Leads n.id id) :
    (g.foundIn id g.reach).1 ≤ k := by
  refine Nat.le_of_not_lt fun hlt => ?_
  obtain ⟨hk, rfl⟩ := List.getElem?_eq_some_iff.mp hn
  have := List.not_of_lt_findIdx hlt
  rw [(leadsTo_iff hm).mpr h] at this
  cases this

theorem foundIn_mono {i j : Nat} (hij : i ≤ j) (hn : (g.found entry)[i]? = some n)
    (hm : (g.found entry)[j]? = some m) :
    (g.foundIn n.id g.reach).1 ≤ (g.foundIn m.id g.reach).1 := by
  obtain ⟨hi, rfl⟩ := List.getElem?_eq_some_iff.mp hn
  obtain ⟨hj, rfl⟩ := List.getElem?_eq_some_iff.mp hm
  rcases Nat.lt_or_eq_of_le hij with hlt | rfl
  · have sooner := List.pairwise_iff_getElem.mp (pairwise_found g entry) i j hi hj hlt
    unfold Sooner at sooner
    omega
  · exact Nat.le_refl _

theorem distance_le_of_leads (he : g.entryNode? = some entry) (hn : n ∈ g.reach)
    (h : g.Leads n.id id) : g.distance entry.id id ≤ g.distance entry.id n.id + 1 := by
  obtain ⟨k, route⟩ := (mem_reachIds_iff he).mp (List.mem_map_of_mem hn)
  exact route.distance_le_succ h

theorem exists_nearer_listed (he : g.entryNode? = some entry) (hm : m ∈ g.found entry) :
    ∃ (l : Nat) (n : Node), g.reach[l]? = some n ∧ g.Leads n.id m.id ∧
      g.distance entry.id m.id = g.distance entry.id n.id + 1 := by
  have hlisted : m ∈ g.reach := by
    rw [reach_eq_cons he]
    exact List.mem_cons_of_mem _ hm
  obtain ⟨k, route⟩ := (mem_reachIds_iff he).mp (List.mem_map_of_mem hlisted)
  obtain ⟨c, j, route', leads, hd⟩ := route.exists_last (of_mem_found hm).1
  obtain ⟨n, hn, rfl⟩ := List.mem_map.mp ((mem_reachIds_iff he).mpr ⟨j, route'⟩)
  obtain ⟨l, hl⟩ := List.mem_iff_getElem?.mp hn
  exact ⟨l, n, hl, leads, hd⟩

/-- What is listed sooner is not farther away. The induction is on the distance of the later node.
The node before it on a shortest route is not listed before the one that it was found through, and
so not before the one that the sooner node was found through. -/
theorem distance_le_of_listed (he : g.entryNode? = some entry) {i j : Nat} (hij : i ≤ j)
    (hn : g.reach[i]? = some n) (hm : g.reach[j]? = some m) :
    g.distance entry.id n.id ≤ g.distance entry.id m.id := by
  induction hd : g.distance entry.id m.id using Nat.strong_induction_on generalizing i j n m with
  | h d ih =>
    rw [reach_eq_cons he] at hn hm
    cases i with
    | zero =>
      obtain rfl : entry = n := Option.some.inj hn
      rw [distance_self]
      exact Nat.zero_le d
    | succ i =>
      obtain ⟨j, rfl⟩ := Nat.exists_eq_add_of_le' (show 1 ≤ j by omega)
      rw [List.getElem?_cons_succ] at hn hm
      have hmfound := List.mem_of_getElem? hm
      obtain ⟨l, last, hlast, leads, hstep⟩ := exists_nearer_listed he hmfound
      obtain ⟨finder, hfinder, finds⟩ := exists_finder (List.mem_of_getElem? hn)
      have hle : (g.foundIn n.id g.reach).1 ≤ l :=
        (foundIn_mono (by omega) hn hm).trans (foundIn_le (of_mem_found hmfound).2 hlast leads)
      have hnear : g.distance entry.id finder.id ≤ g.distance entry.id last.id :=
        ih _ (by omega) hle hfinder hlast rfl
      have hfar : g.distance entry.id n.id ≤ g.distance entry.id finder.id + 1 :=
        distance_le_of_leads he (List.mem_of_getElem? hfinder) finds
      omega

/-- A listing in breadth-first order: every id that edges lead to once, the nearer ones first, and
of those at the same distance the ones first that are found through a node listed sooner, or by an
edge drawn sooner. -/
structure BreadthFirst (g : Graph) (entry : Node) : Prop where
  head : g.reach.head? = some entry
  distinct : g.reachIds.Nodup
  reached : ∀ id, id ∈ g.reachIds ↔ ∃ k, g.Route entry.id k id
  nearer : g.reachIds.Pairwise fun a b => g.distance entry.id a ≤ g.distance entry.id b
  sooner : g.reachIds.tail.Pairwise fun a b => Sooner (g.foundIn a g.reach) (g.foundIn b g.reach)
  declared : ∀ n ∈ g.reach.tail, g.node? n.id = some n

/-- The listing of a graph is in breadth-first order from its first entry node. -/
theorem reach_breadthFirst (g : Graph) :
    (∀ entry, g.entryNode? = some entry → g.BreadthFirst entry) ∧
      (g.entryNode? = none → g.reach = []) := by
  refine ⟨fun entry he => ?_, reach_of_no_entry⟩
  have htail : g.reach.tail = g.found entry := by
    rw [reach_eq_cons he]
    rfl
  constructor
  case head => rw [head?_reach, he]
  case distinct => exact nodup_reachIds he
  case reached => exact fun id => mem_reachIds_iff he
  case nearer =>
    rw [reachIds, List.pairwise_map, List.pairwise_iff_getElem]
    intro i j hi hj hij
    exact distance_le_of_listed he (Nat.le_of_lt hij) (List.getElem?_eq_getElem hi)
      (List.getElem?_eq_getElem hj)
  case sooner =>
    rw [reachIds, ← List.map_tail, htail, List.pairwise_map]
    exact pairwise_found g entry
  case declared =>
    rw [htail]
    exact fun n hn => (of_mem_found hn).2

/-- A cycle, an edge drawn twice, one from a node to itself, and one that leads nowhere. The entry
node is not the first that goes by its id. -/
def mesh : Graph where
  nodes := [{ id := "in", kind := .exit }, { id := "out", kind := .exit },
    { id := "in", kind := .entry }, { id := "b", kind := .action none },
    { id := "c", kind := .action none }, { id := "d", kind := .action none },
    { id := "b", kind := .exit }, { id := "far", kind := .exit }]
  edges := [⟨"1", "in", "in", none⟩, ⟨"2", "in", "c", none⟩, ⟨"3", "b", "out", none⟩,
    ⟨"4", "in", "b", none⟩, ⟨"5", "in", "c", none⟩, ⟨"6", "in", "nowhere", none⟩,
    ⟨"7", "b", "d", none⟩, ⟨"8", "c", "d", none⟩, ⟨"9", "d", "in", none⟩, ⟨"0", "far", "d", none⟩]

theorem mesh_breadthFirst :
    mesh.entryNode? = some { id := "in", kind := .entry } ∧
      mesh.reachIds = ["in", "c", "b", "d", "out"] ∧
      mesh.BreadthFirst { id := "in", kind := .entry } ∧
      ({ mesh with nodes := [] } : Graph).entryNode? = none ∧
      ({ mesh with nodes := [] } : Graph).reach = [] := by
  have he : mesh.entryNode? = some { id := "in", kind := .entry } := by decide
  have hnone : ({ mesh with nodes := [] } : Graph).entryNode? = none := by decide
  exact ⟨he, by decide +kernel, (reach_breadthFirst mesh).1 _ he, hnone, (reach_breadthFirst _).2 hnone⟩

end Graph
end Flowgraph
