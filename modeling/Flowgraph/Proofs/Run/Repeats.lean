import Flowgraph.Proofs.Reach
import Flowgraph.Proofs.Run.Ending
import Flowgraph.Proofs.Run.Rounds
/-!
# Repeated ids

A run and a listing ask a graph three things: where it is entered, what is declared under an id, and
which edges leave an id. A declaration that repeats an earlier id is not the answer to the second
question. It can be the answer to the first, as an entry node is looked for by its tag alone; so the
repeats can be dropped exactly when the entry node is not one of them.
-/
namespace Flowgraph

/-- The nodes without those that repeat the id of an earlier one. -/
def Node.dropRepeats : List Node → List Node
  | [] => []
  | n :: ns => n :: (dropRepeats ns).filter (·.id ≠ n.id)

namespace Node
variable {ns : List Node} {n : Node} {p : Node → Bool}

theorem mem_of_mem_dropRepeats (h : n ∈ dropRepeats ns) : n ∈ ns := by
  induction ns with
  | nil => exact h
  | cons m ns ih =>
    rcases List.mem_cons.mp h with rfl | h
    · exact List.mem_cons_self
    · exact List.mem_cons_of_mem m (ih (List.mem_filter.mp h).1)

theorem find?_id_dropRepeats (ns : List Node) (id : String) :
    (dropRepeats ns).find? (·.id == id) = ns.find? (·.id == id) := by
  induction ns with
  | nil => rfl
  | cons m ns ih =>
    rw [dropRepeats, List.find?_cons, List.find?_cons, List.find?_filter, ← ih]
    by_cases hm : m.id = id
    · simp only [hm, beq_self_eq_true]
    · have hkept : (fun n : Node => decide (decide (n.id ≠ m.id) = true ∧ (n.id == id) = true)) =
          fun n => n.id == id := by
        funext n
        by_cases hn : n.id = id
        · simp [hn, Ne.symm hm]
        · simp [hn]
      rw [hkept]

theorem find?_id_of_mem_dropRepeats (h : n ∈ dropRepeats ns) :
    ns.find? (·.id == n.id) = some n := by
  induction ns with
  | nil => cases h
  | cons m ns ih =>
    rw [List.find?_cons]
    rcases List.mem_cons.mp h with rfl | h
    · rw [beq_self_eq_true]
    · obtain ⟨hn, hne⟩ := List.mem_filter.mp h
      have hm : (m.id == n.id) = false :=
        beq_eq_false_iff_ne.mpr (Ne.symm (of_decide_eq_true hne))
      rw [hm]
      exact ih hn

theorem find?_dropRepeats (hp : ns.find? p = some n) (hid : ns.find? (·.id == n.id) = some n) :
    (dropRepeats ns).find? p = some n := by
  induction ns with
  | nil => cases hp
  | cons m ns ih =>
    rw [dropRepeats, List.find?_cons]
    rw [List.find?_cons] at hp hid
    cases hm : p m with
    | true =>
      rw [hm] at hp
      exact hp
    | false =>
      rw [hm] at hp
      have hne : (m.id == n.id) = false := by
        refine Bool.eq_false_iff.mpr fun heq => ?_
        rw [heq] at hid
        cases hid
        rw [List.find?_some hp] at hm
        cases hm
      rw [hne] at hid
      exact Graph.find?_filter_of_find? (ih hp hid)
        (decide_eq_true (Ne.symm (beq_eq_false_iff_ne.mp hne)))

theorem find?_unique {q : Node → Bool} {m : Node} (hp : ns.find? p = some n)
    (hq : ns.find? q = some m) (hqn : q n = true) (hpm : p m = true) : n = m := by
  induction ns with
  | nil => cases hp
  | cons a ns ih =>
    rw [List.find?_cons] at hp hq
    cases hpa : p a with
    | true =>
      rw [hpa] at hp
      cases hp
      rw [hqn] at hq
      exact Option.some.inj hq
    | false =>
      rw [hpa] at hp
      cases hqa : q a with
      | true =>
        rw [hqa] at hq
        cases hq
        rw [hpm] at hpa
        cases hpa
      | false =>
        rw [hqa] at hq
        exact ih hp hq

end Node

namespace Graph
variable {g g' : Graph} {level : Level} {ceiling : Nat}

/-- The second graph answers as the first one does to all that a run or a listing asks. -/
structure SameLookups (g g' : Graph) : Prop where
  entry : g'.entryNode? = g.entryNode?
  node : ∀ id, g'.node? id = g.node? id
  outgoing : ∀ id, g'.outgoing id = g.outgoing id

namespace SameLookups

theorem follow? (h : SameLookups g g') (level : Level) (n : Node) (w : World) :
    g'.follow? level n w = g.follow? level n w := by
  have ht : g'.target? = g.target? := funext fun e => h.node e.target
  rw [follow?_eq_leave?, follow?_eq_leave?, leave?_congr (h.outgoing n.id), ht]

theorem unnoticed (h : SameLookups g g') : Unnoticed g g' id where
  entry := by rw [h.entry, Option.map_id, id]
  follow level n w := by rw [Option.map_id, id, id, h.follow?]
  action _ := rfl
  id _ := rfl

theorem reach (h : SameLookups g g') : g'.reach = g.reach := by
  -- all ids that are declared or listed are enough for the listing, and make no restriction
  have hnode : ∀ id, g'.node? id =
      if id ∈ g.nodes.map (·.id) ++ g.reachIds then g.node? id else none := by
    intro id
    rw [h.node]
    cases hn : g.node? id with
    | none => exact (ite_self none).symm
    | some n =>
      have hid : id ∈ g.nodes.map (·.id) :=
        id_of_node? hn ▸ List.mem_map_of_mem (mem_of_node? hn)
      rw [if_pos (List.mem_append_left _ hid)]
  refine reach_within h.entry ?_ ?_ hnode
  · intro n hn
    exact List.mem_append_right _ (List.mem_map_of_mem hn)
  · intro n _
    exact h.outgoing n.id

end SameLookups

def dropRepeats (g : Graph) : Graph := { g with nodes := Node.dropRepeats g.nodes }

/-- The entry node does not repeat the id of an earlier node. -/
def EntryDeclaredFirst (g : Graph) : Prop :=
  ∀ entry, g.entryNode? = some entry → g.node? entry.id = some entry

theorem node?_of_mem_dropRepeats {n : Node} (h : n ∈ g.dropRepeats.nodes) :
    g.node? n.id = some n :=
  Node.find?_id_of_mem_dropRepeats h

theorem entryNode?_dropRepeats (h : g.EntryDeclaredFirst) :
    g.dropRepeats.entryNode? = g.entryNode? := by
  cases he : g.entryNode? with
  | none => exact entryNode?_eq_none_of_subset (fun _ => Node.mem_of_mem_dropRepeats) he
  | some entry =>
    have hid := h entry he
    rw [entryNode?_eq_find?] at he ⊢
    exact Node.find?_dropRepeats he hid

theorem dropRepeats_sameLookups (h : g.EntryDeclaredFirst) : SameLookups g g.dropRepeats where
  entry := entryNode?_dropRepeats h
  node := Node.find?_id_dropRepeats g.nodes
  outgoing _ := rfl

theorem entryDeclaredFirst_of_id
    (h : g.dropRepeats.entryNode?.map (·.id) = g.entryNode?.map (·.id)) :
    g.EntryDeclaredFirst := by
  intro entry he
  rw [he] at h
  obtain ⟨kept, hkept, hid⟩ := Option.map_eq_some_iff.mp h
  obtain ⟨hmem, htag⟩ := mem_of_entryNode? hkept
  have hfirst := node?_of_mem_dropRepeats hmem
  rw [entryNode?_eq_find?] at he
  obtain rfl : entry = kept :=
    Node.find?_unique he hfirst (by simp [hid]) (by simp [htag])
  exact hfirst

/-- The nodes that repeat an earlier id make no difference, to any run or to the listing, if the entry
node is not one of them. If it is, they make a difference to the listing, and to any run that may
visit a node. -/
theorem repeats_irrelevant_iff (g : Graph) (level : Level) (ceiling : Nat) :
    (g.EntryDeclaredFirst →
        g.dropRepeats.run level ceiling = g.run level ceiling ∧ g.dropRepeats.reach = g.reach) ∧
      (1 ≤ ceiling → g.dropRepeats.run level ceiling = g.run level ceiling →
        g.EntryDeclaredFirst) ∧
      (g.dropRepeats.reach = g.reach → g.EntryDeclaredFirst) := by
  refine ⟨fun h => ?_, fun hc h => ?_, fun h => ?_⟩
  · have hsame := dropRepeats_sameLookups h
    exact ⟨hsame.unnoticed.run level ceiling, hsame.reach⟩
  · apply entryDeclaredFirst_of_id
    rw [← head?_visited g.dropRepeats level hc, ← head?_visited g level hc, h]
  · apply entryDeclaredFirst_of_id
    rw [← head?_reach, ← head?_reach, h]

def echoed : Graph where
  nodes := [{ id := "in", kind := .entry }, { id := "a", kind := .action (some (.known .wait)) },
    { id := "a", kind := .exit }]
  edges := [⟨"1", "in", "a", none⟩, ⟨"2", "a", "a", none⟩]

theorem echoed_repeats_irrelevant :
    1 ≤ 7 ∧ echoed.dropRepeats.nodes.length = 2 ∧ (echoed.run nook 7).visited = ["in", "a"] ∧
      echoed.dropRepeats.run nook 7 = echoed.run nook 7 ∧
      echoed.dropRepeats.reach = echoed.reach ∧ echoed.EntryDeclaredFirst := by
  have hc : 1 ≤ 7 := by decide
  have hfirst : echoed.EntryDeclaredFirst := by
    intro entry he
    cases he
    rfl
  have hv : (echoed.run nook 7).visited = ["in", "a"] := by
    rw [run_eq_stagedRun]
    decide
  have hrun : echoed.dropRepeats.run nook 7 = echoed.run nook 7 := by
    rw [run_eq_stagedRun, run_eq_stagedRun]
    decide
  obtain ⟨hsame, hback, -⟩ := repeats_irrelevant_iff echoed nook 7
  exact ⟨hc, by decide, hv, hrun, (hsame hfirst).2, hback hc hrun⟩

def shadowed : Graph where
  nodes := [{ id := "a", kind := .action (some (.known .wait)) }, { id := "a", kind := .entry }]
  edges := [⟨"1", "a", "a", none⟩]

/-- Here the second declaration is entered, and the run goes on at the first one; without the second
there is nowhere to enter. -/
theorem shadowed_entry_executed :
    (shadowed.run nook 7).visited = ["a", "a"] ∧
      (shadowed.dropRepeats.run nook 7).visited = [] ∧
      shadowed.dropRepeats.run nook 7 ≠ shadowed.run nook 7 ∧
      shadowed.dropRepeats.reach ≠ shadowed.reach := by
  have hv : (shadowed.run nook 7).visited = ["a", "a"] := by
    rw [run_eq_stagedRun]
    decide
  have hnone : shadowed.dropRepeats.entryNode? = none := rfl
  have hv' : (shadowed.dropRepeats.run nook 7).visited = [] := by
    rw [run_of_no_entry hnone]
  refine ⟨hv, hv', fun h => ?_, fun h => ?_⟩
  · rw [h, hv] at hv'
    cases hv'
  · have hhead := head?_reach shadowed
    rw [← h, reach_of_no_entry hnone] at hhead
    cases hhead

end Graph
end Flowgraph
