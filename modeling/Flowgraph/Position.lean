import Flowgraph.Vocabulary
/-!
# Positions and directions

The plane on which the character walks. `y` grows southwards. Coordinates are bounded, and a step
past a bound stays on it.
-/
namespace Flowgraph

/-- A coordinate fits in 32 bits, sign included. -/
structure Coord where
  val : Int
  lower : -2147483648 ≤ val := by decide
  upper : val ≤ 2147483647 := by decide
  deriving DecidableEq

namespace Coord

def clamp (n : Int) : Coord where
  val := max (-2147483648) (min n 2147483647)
  lower := by omega
  upper := by omega

def ofInt? (n : Int) : Option Coord :=
  if h : -2147483648 ≤ n ∧ n ≤ 2147483647 then some ⟨n, h.1, h.2⟩ else none

@[ext] theorem ext {a b : Coord} (h : a.val = b.val) : a = b := by
  cases a; cases b; simp_all

@[simp] theorem ofInt?_val (c : Coord) : ofInt? c.val = some c := by
  simp [ofInt?, c.lower, c.upper]

theorem clamp_val (n : Int) (l : -2147483648 ≤ n) (u : n ≤ 2147483647) : (clamp n).val = n := by
  simp only [clamp]; omega

instance : OfNat Coord 0 := ⟨⟨0, by decide, by decide⟩⟩

end Coord

inductive Direction where
  | north | south | east | west
  deriving DecidableEq, Repr

instance : Vocabulary Direction where
  words := [("north", .north), ("south", .south), ("east", .east), ("west", .west)]
  name
    | .north => "north"
    | .south => "south"
    | .east => "east"
    | .west => "west"
  lookup_name d := by cases d <;> rfl

namespace Direction

def offset : Direction → Int × Int
  | north => (0, -1)
  | south => (0, 1)
  | east => (1, 0)
  | west => (-1, 0)

def turnLeft : Direction → Direction
  | north => west
  | west => south
  | south => east
  | east => north

def turnRight : Direction → Direction
  | north => east
  | east => south
  | south => west
  | west => north

end Direction

structure Position where
  x : Coord
  y : Coord
  deriving DecidableEq

def Position.ahead (p : Position) (d : Direction) : Position :=
  ⟨.clamp (p.x.val + d.offset.1), .clamp (p.y.val + d.offset.2)⟩

end Flowgraph
