import Flowgraph.Proofs.Loops
import Flowgraph.Proofs.Run.Cutoff
/-!
# The loops that are open

Which loops a run is inside of, and in which round of each, is told by how often it visited their
nodes. A loop opens with the first visit, goes through a round with each one after that, and closes
with the visit that its count calls for, to be opened anew by the next. A count of one is walked as a
count of two is, since a loop that is opened can be closed by a second visit at the earliest. Loops may
be nested, may cross, and may be left by a condition without being closed.
-/
namespace Flowgraph

/-- The visits from the opening of a loop to its closing, both included. -/
def period (rounds : Nat) : Nat := max rounds 2

/-- The frame of a loop after some visits to its node. There is none before the first of them, and none
when the last of them has closed the loop. -/
def frameAfter? (rounds : Nat) (loop body : String) (visits : Nat) : Option Frame :=
  if period rounds ∣ visits then none else some ⟨loop, rounds, visits % period rounds, body⟩

def Node.rounds? (n : Node) : Option Rounds :=
  match n.kind with
  | .loop rounds => some rounds
  | _ => none

theorem Node.kind_of_rounds? {n : Node} {rounds : Rounds} (h : n.rounds? = some rounds) :
    n.kind = .loop rounds := by
  obtain ⟨id, kind, label⟩ := n
  cases kind with
  | loop r => exact congrArg Kind.loop (Option.some.inj h)
  | entry => cases h
  | action => cases h
  | condition => cases h
  | exit => cases h

theorem two_le_period (rounds : Nat) : 2 ≤ period rounds := Nat.le_max_right ..

theorem succ_mod {p : Nat} (hp : 0 < p) (t : Nat) :
    (t + 1) % p = if t % p + 1 = p then 0 else t % p + 1 := by
  have hlt := Nat.mod_lt t hp
  rw [← Nat.mod_add_mod]
  by_cases h : t % p + 1 = p
  · rw [if_pos h, h, Nat.mod_self]
  · rw [if_neg h, Nat.mod_eq_of_lt (by omega)]

namespace Graph
variable {g : Graph} {level : Level} {n b : Node} {rounds t : Nat} {s : Loops}

theorem enterLoop_of_deadEnd (hb : g.next? n = none) (level : Level) (rounds : Nat) (s : Loops) :
    ((g.course level).enterLoop n rounds s).2 = s := by
  simp only [Course.enterLoop, course, Index.next?_ofGraph, hb]

theorem enterLoop_of_closed (hb : g.next? n = some b) (hf : s.find? n.id = none) (level : Level)
    (rounds : Nat) :
    ((g.course level).enterLoop n rounds s).2 = s.push ⟨n.id, rounds, 1, b.id⟩ := by
  simp only [Course.enterLoop, course, Index.next?_ofGraph, hb, hf]

theorem enterLoop_of_open {f : Frame} (hb : g.next? n = some b) (hf : s.find? n.id = some f)
    (level : Level) (rounds : Nat) :
    ((g.course level).enterLoop n rounds s).2 =
      if f.rounds ≤ f.round + 1 then s.remove n.id else s.setRound n.id (f.round + 1) := by
  simp only [Course.enterLoop, course, Index.next?_ofGraph, hb, hf]
  split_ifs <;> rfl

theorem enterLoop_touches (hd : s.Distinct) (hb : g.next? n = some b)
    (hf : s.find? n.id = frameAfter? rounds n.id b.id t) (level : Level) :
    s.Touches ((g.course level).enterLoop n rounds s).2 n.id
      (frameAfter? rounds n.id b.id (t + 1)) := by
  have hp := two_le_period rounds
  have hlt := Nat.mod_lt t (by omega : 0 < period rounds)
  have hsucc := succ_mod (by omega : 0 < period rounds) t
  simp only [frameAfter?, Nat.dvd_iff_mod_eq_zero] at hf ⊢
  by_cases hclosed : t % period rounds = 0
  · rw [if_pos hclosed] at hf
    rw [hclosed, if_neg (by omega)] at hsucc
    rw [enterLoop_of_closed hb hf, hsucc, if_neg (by omega)]
    exact hd.push_touches hf
  · rw [if_neg hclosed] at hf
    rw [enterLoop_of_open hb hf]
    -- a count of one is reached by the first round already, but is tested for only after the second
    have hlast : rounds ≤ t % period rounds + 1 ↔ t % period rounds + 1 = period rounds := by
      unfold period at hlt hclosed ⊢
      omega
    by_cases hend : t % period rounds + 1 = period rounds
    · rw [if_pos hend] at hsucc
      rw [if_pos (hlast.mpr hend), if_pos hsucc]
      exact hd.remove_touches n.id
    · rw [if_neg hend] at hsucc
      rw [if_neg (mt hlast.mp hend), hsucc, if_neg (by omega)]
      exact hd.setRound_touches hf _

/-- The frame of the loop that goes by an id, after some nodes were visited. -/
def frameFor? (g : Graph) (visited : List Node) (id : String) : Option Frame := do
  let n ← g.node? id
  let rounds ← n.rounds?
  let body ← g.next? n
  frameAfter? rounds.count n.id body.id (visited.count n)

theorem frameFor?_of_loop {rounds : Rounds} (hn : g.node? n.id = some n)
    (hr : n.rounds? = some rounds) (hb : g.next? n = some b) (visited : List Node) :
    g.frameFor? visited n.id = frameAfter? rounds.count n.id b.id (visited.count n) := by
  simp only [frameFor?, hn, hr, hb, Option.bind_eq_bind, Option.bind_some]

theorem frameFor?_eq_some_iff {visited : List Node} {id : String} {f : Frame} :
    g.frameFor? visited id = some f ↔
      ∃ n rounds b, g.node? id = some n ∧ n.rounds? = some rounds ∧ g.next? n = some b ∧
        frameAfter? rounds.count n.id b.id (visited.count n) = some f := by
  simp only [frameFor?, Option.bind_eq_bind, Option.bind_eq_some_iff]
  constructor
  · rintro ⟨n, hn, rounds, hr, b, hb, hf⟩
    exact ⟨n, rounds, b, hn, hr, hb, hf⟩
  · rintro ⟨n, rounds, b, hn, hr, hb, hf⟩
    exact ⟨n, hn, rounds, hr, b, hb, hf⟩

theorem frameFor?_concat {id : String}
    (h : ∀ rounds b, g.node? id = some n → n.rounds? = some rounds → g.next? n = some b → False)
    (visited : List Node) : g.frameFor? (visited ++ [n]) id = g.frameFor? visited id := by
  apply Option.ext
  intro f
  rw [frameFor?_eq_some_iff, frameFor?_eq_some_iff]
  have hcount : ∀ {m rounds b}, g.node? id = some m → m.rounds? = some rounds →
      g.next? m = some b → (visited ++ [n]).count m = visited.count m := by
    intro m rounds b hm hr hb
    have hne : n ≠ m := by
      rintro rfl
      exact h rounds b hm hr hb
    rw [List.count_append, List.count_singleton, beq_eq_false_iff_ne.mpr hne]
    rfl
  constructor
  · rintro ⟨m, rounds, b, hm, hr, hb, hf⟩
    rw [hcount hm hr hb] at hf
    exact ⟨m, rounds, b, hm, hr, hb, hf⟩
  · rintro ⟨m, rounds, b, hm, hr, hb, hf⟩
    rw [← hcount hm hr hb] at hf
    exact ⟨m, rounds, b, hm, hr, hb, hf⟩

/-- The open loops are what the visited nodes make them. -/
structure Tallied (g : Graph) (visited : List Node) (s : Loops) : Prop where
  distinct : s.Distinct
  frame : ∀ id, s.find? id = g.frameFor? visited id

theorem empty_tallied (g : Graph) : g.Tallied [] {} := by
  refine ⟨Loops.empty_distinct, fun id => Eq.symm ?_⟩
  change g.frameFor? [] id = none
  rw [Option.eq_none_iff_forall_ne_some]
  intro f hf
  obtain ⟨n, rounds, b, -, -, -, hf⟩ := frameFor?_eq_some_iff.mp hf
  rw [List.count_nil, frameAfter?, if_pos (Nat.dvd_zero _)] at hf
  cases hf

theorem visit_loops (g : Graph) (level : Level) (n : Node) (w : Walk) :
    ((g.course level).visit n w).2.loops =
      match n.rounds? with
      | none => w.loops
      | some rounds => ((g.course level).enterLoop n rounds.count w.loops).2 := by
  obtain ⟨id, kind, label⟩ := n
  cases kind with
  | entry => rfl
  | action a => cases a <;> rfl
  | condition p => rfl
  | loop rounds => rfl
  | exit => rfl

theorem Tallied.visit {visited : List Node} {w : Walk} (h : g.Tallied visited w.loops)
    (hn : ∀ rounds, n.rounds? = some rounds → g.node? n.id = some n) (level : Level) :
    g.Tallied (visited ++ [n]) ((g.course level).visit n w).2.loops := by
  rw [visit_loops]
  cases hr : n.rounds? with
  | none =>
    refine ⟨h.distinct, fun id => ?_⟩
    rw [frameFor?_concat, h.frame]
    intro rounds b _ hsome
    rw [hr] at hsome
    cases hsome
  | some rounds =>
    have hnode := hn rounds hr
    cases hb : g.next? n with
    | none =>
      simp only [enterLoop_of_deadEnd hb]
      refine ⟨h.distinct, fun id => ?_⟩
      rw [frameFor?_concat, h.frame]
      intro rounds b _ _ hsome
      rw [hb] at hsome
      cases hsome
    | some b =>
      have hf := h.frame n.id
      rw [frameFor?_of_loop hnode hr hb] at hf
      have ht := enterLoop_touches h.distinct hb hf level
      refine ⟨ht.distinct, fun id => ?_⟩
      by_cases hid : id = n.id
      · rw [hid, ht.frame, frameFor?_of_loop hnode hr hb, List.count_append, List.count_singleton_self]
      · rw [ht.rest id hid, h.frame, frameFor?_concat]
        intro _ _ hsome
        exact absurd (id_of_node? hsome).symm hid

/-- Except for the entry node at the start, a node that is visited was found under its id. -/
theorem node?_of_current {k : Nat} {rounds : Rounds} (hc : (g.stage level k).current? = some n)
    (hr : n.rounds? = some rounds) : g.node? n.id = some n := by
  rcases first_or_followed hc with ⟨-, he⟩ | ⟨j, m, -, -, hfollow, -⟩
  · have ht := (mem_of_entryNode? he).2
    rw [Node.tag, Node.kind_of_rounds? hr] at ht
    cases ht
  · obtain ⟨e, -, -, he⟩ := exists_edge_of_follow? hfollow
    rw [id_of_node? he]
    exact he

theorem tallied (g : Graph) (level : Level) (k : Nat) :
    g.Tallied (g.trail level k) (g.moment level k).walk.loops := by
  induction k with
  | zero => exact empty_tallied g
  | succ k ih =>
    -- a run that is over visits nothing and changes nothing, so both sides stay
    rw [moment_succ, trail_succ, ← moment_stage]
    cases hc : (g.moment level k).stage.current? with
    | none =>
      rw [Course.advance_of_over hc, Option.toList_none, List.append_nil]
      exact ih
    | some n =>
      rw [Course.advance_of_current hc]
      rw [moment_stage] at hc
      exact ih.visit (fun _ hr => node?_of_current hc hr) level

theorem frameAfter?_eq_some_iff {loop body : String} {f : Frame} :
    frameAfter? rounds loop body t = some f ↔
      ¬period rounds ∣ t ∧ f = ⟨loop, rounds, t % period rounds, body⟩ := by
  unfold frameAfter?
  split_ifs with h
  · simp [h]
  · simp [h, eq_comm]

theorem Tallied.frame_of_mem {visited : List Node} {f : Frame} (h : g.Tallied visited s)
    (hf : f ∈ s.frames) :
    ∃ n rounds b, g.node? n.id = some n ∧ n.kind = .loop rounds ∧ g.next? n = some b ∧
      ¬period rounds.count ∣ visited.count n ∧
      f = ⟨n.id, rounds.count, visited.count n % period rounds.count, b.id⟩ := by
  have hfind := (h.frame f.loop).symm.trans (h.distinct.find?_of_mem hf)
  obtain ⟨n, rounds, b, hn, hr, hb, hframe⟩ := frameFor?_eq_some_iff.mp hfind
  obtain ⟨hopen, hf⟩ := frameAfter?_eq_some_iff.mp hframe
  rw [← id_of_node? hn] at hn
  exact ⟨n, rounds, b, hn, Node.kind_of_rounds? hr, hb, hopen, hf⟩

/-- What is known of the open loops after some visits, and of the three counts of a run. -/
structure LoopsKept (g : Graph) (level : Level) (k : Nat) : Prop where
  distinct : ((g.moment level k).walk.loops.frames.map (·.loop)).Nodup
  frame : ∀ f ∈ (g.moment level k).walk.loops.frames, ∃ n ∈ g.visits level k, ∃ rounds e,
    n.kind = .loop rounds ∧ n.id = f.loop ∧ f.rounds = rounds.count ∧
      (g.outgoing n.id).head? = some e ∧ f.body = e.target
  depth : (g.moment level k).walk.loops.depth ≤ ((g.nodesOf .loop).map (·.id)).dedup.length
  round : ∀ n ∈ g.visits level k, ∀ rounds, n.kind = .loop rounds → (g.next? n).isSome = true →
    ((g.moment level k).walk.loops.find? n.id = none ↔
        period rounds.count ∣ (g.visits level k).count n) ∧
      ∀ f, (g.moment level k).walk.loops.find? n.id = some f →
        f.round = (g.visits level k).count n % period rounds.count
  round_bounded : ∀ f ∈ (g.moment level k).walk.loops.frames, f.round + 1 < UInt32.size
  steps_bounded : (g.moment level k).walk.steps < UInt32.size
  stepCount_bounded : (g.moment level k).walk.world.stepCount < UInt32.size

theorem node?_of_visited {k : Nat} {rounds : Rounds} (h : n ∈ g.trail level k)
    (hr : n.rounds? = some rounds) : g.node? n.id = some n := by
  obtain ⟨i, -, hi⟩ := List.mem_filterMap.mp h
  exact node?_of_current hi hr

theorem Tallied.round {visited : List Node} {rounds : Rounds} (h : g.Tallied visited s)
    (hn : g.node? n.id = some n) (hr : n.rounds? = some rounds) (hb : g.next? n = some b) :
    (s.find? n.id = none ↔ period rounds.count ∣ visited.count n) ∧
      ∀ f, s.find? n.id = some f → f.round = visited.count n % period rounds.count := by
  rw [h.frame, frameFor?_of_loop hn hr hb]
  constructor
  · unfold frameAfter?
    split_ifs with hclosed
    · simp [hclosed]
    · simp [hclosed]
  · intro f hf
    rw [(frameAfter?_eq_some_iff.mp hf).2]

theorem period_lt_size (rounds : Rounds) : period rounds.count < UInt32.size := by
  have hb := rounds.bounded
  unfold period UInt32.size
  omega

theorem budget_lt_size (level : Level) : level.budget < UInt32.size := by
  have hm := level.maxSteps.toNat_lt_size
  unfold Level.budget
  unfold UInt32.size at hm ⊢
  omega

theorem loopsKept_of_lt {k : Nat} (g : Graph) (level : Level) (hk : k < UInt32.size) :
    g.LoopsKept level k := by
  have h := tallied g level k
  constructor
  · exact h.distinct
  · intro f hf
    obtain ⟨n, rounds, b, hn, hkind, hb, hopen, rfl⟩ := h.frame_of_mem hf
    obtain ⟨e, he, htarget⟩ := Option.bind_eq_some_iff.mp hb
    refine ⟨n, ?_, rounds, e, hkind, rfl, rfl, he, id_of_node? htarget⟩
    rw [visits_eq_trail]
    by_contra hnot
    rw [List.count_eq_zero.mpr hnot] at hopen
    exact hopen (Nat.dvd_zero _)
  · apply h.distinct.depth_le
    intro f hf
    obtain ⟨n, rounds, b, hn, hkind, hb, hopen, rfl⟩ := h.frame_of_mem hf
    apply List.mem_map_of_mem
    rw [nodesOf, List.mem_filter]
    exact ⟨mem_of_node? hn, by rw [Node.tag, hkind]; rfl⟩
  · intro n hn rounds hkind hnext
    rw [visits_eq_trail] at hn ⊢
    obtain ⟨b, hb⟩ := Option.isSome_iff_exists.mp hnext
    have hr : n.rounds? = some rounds := by rw [Node.rounds?, hkind]
    exact h.round (node?_of_visited hn hr) hr hb
  · intro f hf
    obtain ⟨n, rounds, b, -, -, -, -, rfl⟩ := h.frame_of_mem hf
    have hp := two_le_period rounds.count
    have hsize := period_lt_size rounds
    have hlt := Nat.mod_lt ((g.trail level k).count n) (by omega : 0 < period rounds.count)
    dsimp only
    omega
  · rw [(in_step g level k).steps]
    exact Nat.lt_of_le_of_lt (length_trail_le g level k) hk
  · rw [moment_world]
    exact Nat.lt_of_le_of_lt (stage_withinBudget g level k).spent (budget_lt_size level)

/-- In every state of a run the open loops are distinct, are loops that were visited, and are in the
round that the visits say; and nothing that is counted outgrows 32 bits. -/
theorem loops_kept (g : Graph) (level : Level) (ceiling : UInt32) :
    (∀ k ≤ ceiling.toNat, g.LoopsKept level k) ∧
      (g.course level).proceed ceiling.toNat g.entryNode? { world := level.start } =
        (g.moment level ceiling.toNat).walk ∧
      (g.run level ceiling.toNat).executionSteps < UInt32.size ∧
      (g.run level ceiling.toNat).outcome.stepCount < UInt32.size := by
  have hsize := ceiling.toNat_lt_size
  refine ⟨?_, ?_, ?_, ?_⟩
  · intro k hk
    exact loopsKept_of_lt g level (Nat.lt_of_le_of_lt hk hsize)
  · exact (g.course level).proceed_eq ceiling.toNat ⟨g.entryNode?, { world := level.start }⟩
  · rw [(run_trace g level ceiling.toNat).1]
    exact Nat.lt_of_le_of_lt (length_trail_le g level ceiling.toNat) hsize
  · rw [run_stepCount]
    exact Nat.lt_of_le_of_lt (stage_withinBudget g level ceiling.toNat).spent (budget_lt_size level)

def crossing : Graph where
  nodes := [{ id := "in", kind := .entry }, { id := "once", kind := .loop (.clamp 1) },
    { id := "thrice", kind := .loop (.clamp 3) }]
  edges := [⟨"1", "in", "once", none⟩, ⟨"2", "once", "thrice", none⟩,
    ⟨"3", "thrice", "once", none⟩]

theorem crossing_kept :
    6 ≤ (10 : UInt32).toNat ∧
      ⟨"once", .loop (.clamp 1), ""⟩ ∈ crossing.visits nook 6 ∧
      ⟨"thrice", .loop (.clamp 3), ""⟩ ∈ crossing.visits nook 6 ∧
      (crossing.moment nook 6).walk.loops.find? "once" ≠ none ∧
      ((crossing.moment nook 6).walk.loops.find? "thrice").map (·.round) = some 2 ∧
      (crossing.moment nook 6).walk.loops.depth ≤ 2 := by
  have hk : 6 ≤ (10 : UInt32).toNat := by decide
  have h := (loops_kept crossing nook 10).1 6 hk
  have honce : ⟨"once", .loop (.clamp 1), ""⟩ ∈ crossing.visits nook 6 := by
    rw [visits_eq_trail]
    decide
  have hthrice : ⟨"thrice", .loop (.clamp 3), ""⟩ ∈ crossing.visits nook 6 := by
    rw [visits_eq_trail]
    decide
  have hround := h.round _ honce _ rfl (by decide)
  have hrounds := h.round _ hthrice _ rfl (by decide)
  rw [visits_eq_trail] at hround hrounds
  refine ⟨hk, honce, hthrice, ?_, ?_, h.depth⟩
  · rw [ne_eq, hround.1]
    decide
  · obtain ⟨f, hf⟩ := Option.ne_none_iff_exists'.mp (mt hrounds.1.mp (by decide))
    rw [hf, Option.map_some, hrounds.2 f hf]
    rfl

end Graph
end Flowgraph
