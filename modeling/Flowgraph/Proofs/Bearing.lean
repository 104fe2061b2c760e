import Flowgraph.Position
import Mathlib.Logic.Function.Iterate
import Mathlib.Tactic.Common
/-!
# Bearings

Places that lie straight ahead of one another. Steps ahead get there one by one, as long as they stay
within the bounds of a coordinate; a step past a bound stays where it is, and so do all that follow.
-/
namespace Flowgraph
namespace Position
variable {p q q' : Position} {d : Direction} {k k' : Nat}

/-- `q` lies so many places ahead of `p`, counted without bounds. -/
structure Along (p : Position) (d : Direction) (k : Nat) (q : Position) : Prop where
  x : q.x.val = p.x.val + k * d.offset.1
  y : q.y.val = p.y.val + k * d.offset.2

/-- So many steps ahead, each on a bound if it would pass it. -/
def steps (p : Position) (d : Direction) (k : Nat) : Position := (·.ahead d)^[k] p

theorem steps_succ (p : Position) (d : Direction) (k : Nat) :
    p.steps d (k + 1) = (p.steps d k).ahead d :=
  Function.iterate_succ_apply' ..

theorem along_zero (p : Position) (d : Direction) : p.Along d 0 p := ⟨by simp, by simp⟩

theorem Along.unique (h : p.Along d k q) (h' : p.Along d k q') : q = q' := by
  obtain ⟨x, y⟩ := q
  obtain ⟨x', y'⟩ := q'
  have hx : x = x' := Coord.ext (h.x.trans h'.x.symm)
  have hy : y = y' := Coord.ext (h.y.trans h'.y.symm)
  rw [hx, hy]

theorem Along.distance_unique (h : p.Along d k q) (h' : p.Along d k' q) : k = k' := by
  obtain ⟨hx, hy⟩ := h
  obtain ⟨hx', hy'⟩ := h'
  cases d <;> simp only [Direction.offset] at hx hy hx' hy' <;> omega

/-- A step ahead gets one place further, or it stays on a bound. -/
theorem along_ahead_or_stays (q : Position) (d : Direction) :
    q.Along d 1 (q.ahead d) ∨ q.ahead d = q := by
  obtain ⟨⟨x, hx, hx'⟩, ⟨y, hy, hy'⟩⟩ := q
  by_cases hin : (-2147483648 ≤ x + d.offset.1 ∧ x + d.offset.1 ≤ 2147483647) ∧
      -2147483648 ≤ y + d.offset.2 ∧ y + d.offset.2 ≤ 2147483647
  · left
    constructor
    · rw [Int.natCast_one, Int.one_mul]
      exact Coord.clamp_val _ hin.1.1 hin.1.2
    · rw [Int.natCast_one, Int.one_mul]
      exact Coord.clamp_val _ hin.2.1 hin.2.2
  · right
    simp only [ahead, Coord.clamp, mk.injEq, Coord.mk.injEq]
    cases d <;> simp only [Direction.offset] at hin ⊢ <;> omega

theorem Along.succ (h : p.Along d k q) (h' : q.Along d 1 q') : p.Along d (k + 1) q' := by
  obtain ⟨hx, hy⟩ := h
  obtain ⟨hx', hy'⟩ := h'
  constructor
  · rw [hx', hx]
    cases d <;> simp only [Direction.offset] <;> omega
  · rw [hy', hy]
    cases d <;> simp only [Direction.offset] <;> omega

theorem along_steps_or_stayed (p : Position) (d : Direction) (k : Nat) :
    p.Along d k (p.steps d k) ∨ ∃ j < k, (p.steps d j).ahead d = p.steps d j := by
  induction k with
  | zero => exact Or.inl (along_zero p d)
  | succ k ih =>
    rcases ih with h | ⟨j, hj, hstays⟩
    · rcases along_ahead_or_stays (p.steps d k) d with hstep | hstays
      · left
        rw [steps_succ]
        exact h.succ hstep
      · exact Or.inr ⟨k, Nat.lt_succ_self k, hstays⟩
    · exact Or.inr ⟨j, Nat.lt_succ_of_lt hj, hstays⟩

theorem steps_of_stayed {j : Nat} (h : (p.steps d j).ahead d = p.steps d j) (hjk : j ≤ k) :
    p.steps d k = p.steps d j := by
  induction hjk with
  | refl => rfl
  | step _ ih => rw [steps_succ, ih, h]

/-- Short of a place ahead, no step stays: the bounds lie at that place or past it. -/
theorem Along.ahead_of_lt (h : p.Along d k q) (h' : p.Along d k' q') (hlt : k' < k) :
    q'.Along d 1 (q'.ahead d) := by
  obtain ⟨hx, hy⟩ := h
  obtain ⟨hx', hy'⟩ := h'
  have hqx := And.intro q.x.lower q.x.upper
  have hqy := And.intro q.y.lower q.y.upper
  have hqx' := And.intro q'.x.lower q'.x.upper
  have hqy' := And.intro q'.y.lower q'.y.upper
  constructor
  · refine (Coord.clamp_val _ ?_ ?_).trans ?_ <;> cases d <;>
      simp only [Direction.offset] at * <;> omega
  · refine (Coord.clamp_val _ ?_ ?_).trans ?_ <;> cases d <;>
      simp only [Direction.offset] at * <;> omega

theorem Along.steps (h : p.Along d k q) {j : Nat} (hj : j ≤ k) : p.Along d j (p.steps d j) := by
  induction j with
  | zero => exact along_zero p d
  | succ j ih =>
    have hsteps := ih (Nat.le_of_succ_le hj)
    rw [steps_succ]
    exact hsteps.succ (h.ahead_of_lt hsteps hj)

end Position
end Flowgraph
