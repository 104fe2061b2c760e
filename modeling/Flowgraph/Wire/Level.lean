import Flowgraph.Level
import Flowgraph.Json.Record
/-!
# Levels on the wire
-/
namespace Flowgraph

open Json

def Coord.codec : Codec Coord := .integer "i32" Coord.ofInt? Coord.val

def Position.fields : Fields [Coord, Coord] :=
  .cons (.required "x" Coord.codec) <| .cons (.required "y" Coord.codec) .nil

def Position.codec : Codec Position :=
  (Position.fields.codec "Position").map (fun (x, y, ()) => ⟨x, y⟩) (fun p => (p.x, p.y, ()))

def Cell.fields : Fields [CellKind, Coord, Coord] :=
  .cons (.required "kind" .word ["type"]) <|
  .cons (.required "x" Coord.codec) <|
  .cons (.required "y" Coord.codec) .nil

def Cell.codec : Codec Cell :=
  (Cell.fields.codec "Cell").map (fun (kind, x, y, ()) => ⟨kind, x, y⟩)
    (fun c => (c.kind, c.x, c.y, ()))

def Grid.codec : Codec Grid := Cell.codec.list.list.map Grid.mk Grid.rows

namespace Level

def count : Codec UInt32 :=
  .integer "u32" (fun n => if 0 ≤ n ∧ n < UInt32.size then some (.ofNat n.toNat) else none)
    (fun n => n.toNat)

def fields :
    Fields [String, String, String, Grid, Position, Direction, Position, UInt32, Option UInt32,
      Option Difficulty, Option (List String), Option (List String)] :=
  .cons (.required "id" .text) <|
  .cons (.required "name" .text) <|
  .cons (.defaulted "description" .text "") <|
  .cons (.required "grid" Grid.codec) <|
  .cons (.required "startPosition" Position.codec) <|
  .cons (.required "startDirection" .word) <|
  .cons (.required "goalPosition" Position.codec) <|
  .cons (.required "maxSteps" count) <|
  .cons (.optional "minSteps" count) <|
  .cons (.optional "difficulty" .word) <|
  .cons (.optional "hints" Codec.text.list) <|
  .cons (.optional "requiredActions" Codec.text.list) .nil

def codec : Codec Level :=
  (fields.codec "PuzzleLevel").map
    (fun (id, name, description, grid, start, direction, goal, maxSteps, minSteps, difficulty, hints,
        required, ()) =>
      ⟨id, name, description, grid, start, direction, goal, maxSteps, minSteps, difficulty, hints,
        required⟩)
    (fun l => (l.id, l.name, l.description, l.grid, l.startPosition, l.startDirection,
      l.goalPosition, l.maxSteps, l.minSteps, l.difficulty, l.hints, l.requiredActions, ()))

end Level
end Flowgraph
