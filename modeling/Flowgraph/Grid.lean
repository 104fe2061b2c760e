import Flowgraph.Position
/-!
# Grids

Rows of cells, the row first. Rows may differ in length, and a place is on the grid when the row that
it falls in reaches it. What the character meets somewhere is a `Look`.
-/
namespace Flowgraph

inductive CellKind where
  | empty | wall | treasure | start | goal
  deriving DecidableEq, Repr

instance : Vocabulary CellKind where
  words := [("empty", .empty), ("wall", .wall), ("treasure", .treasure), ("start", .start),
    ("goal", .goal)]
  name
    | .empty => "empty"
    | .wall => "wall"
    | .treasure => "treasure"
    | .start => "start"
    | .goal => "goal"
  lookup_name k := by cases k <;> rfl

def CellKind.ofChar : Char → CellKind
  | '#' => .wall
  | 'S' => .start
  | 'G' => .goal
  | 'T' => .treasure
  | _ => .empty

/-- A cell says where it lies, but only its place in the grid counts. -/
structure Cell where
  kind : CellKind
  x : Coord
  y : Coord
  deriving DecidableEq

inductive Look where
  | free | wall | outOfBounds
  deriving DecidableEq, Repr

instance : Vocabulary Look where
  words := [("open", .free), ("wall", .wall), ("outOfBounds", .outOfBounds)]
  name
    | .free => "open"
    | .wall => "wall"
    | .outOfBounds => "outOfBounds"
  lookup_name l := by cases l <;> rfl

structure Grid where
  rows : List (List Cell) := []
  deriving DecidableEq

namespace Grid

def drawRow (y : Nat) (row : String) : List Cell :=
  row.toList.zipIdx.map fun (c, x) => ⟨.ofChar c, .clamp x, .clamp y⟩

def ofRows (rows : List String) : Grid :=
  ⟨rows.zipIdx.map fun (row, y) => drawRow y row⟩

variable (g : Grid)

def isEmpty : Bool := g.rows.isEmpty

def cell? (p : Position) : Option Cell :=
  if 0 ≤ p.x.val ∧ 0 ≤ p.y.val then
    g.rows[p.y.val.toNat]?.bind fun row => row[p.x.val.toNat]?
  else
    none

def look (p : Position) : Look :=
  match g.cell? p with
  | none => .outOfBounds
  | some c => if c.kind = .wall then .wall else .free

def isOpen (p : Position) : Bool := g.look p = .free

end Grid
end Flowgraph
