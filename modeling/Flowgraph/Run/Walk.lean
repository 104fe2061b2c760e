import Flowgraph.Index
import Flowgraph.Loops
import Flowgraph.Run.Message
/-!
# Walks

A run walks a graph against a level, one node at a time. Every visit counts against the ceiling; only
an action counts against the level's budget. Loops are kept apart from the world: they close when
control comes back to the loop's own node.
-/
namespace Flowgraph

structure Course where
  index : Index
  level : Level

structure Walk where
  world : World
  loops : Loops := {}
  steps : Nat := 0
  visited : Array String := #[]

/-- A walk that spent all its visits without a verdict ran away, even when it stands on an exit. -/
def Walk.callOff (w : Walk) (ceiling : Nat) : Walk :=
  if ceiling ≤ w.steps then { w with world := w.world.markFailed .infiniteLoop } else w

namespace Course
variable (c : Course)

/-- One visit to a loop node. It opens the loop, starts the next round of an open one, or closes the
loop when its rounds are used up. A closed loop is left by the edge that leads into its body. -/
def enterLoop (n : Node) (rounds : Nat) (s : Loops) : Option Node × Loops :=
  match c.index.next? n with
  | none => (none, s)
  | some body =>
    match s.find? n.id with
    | none => (some body, s.push ⟨n.id, rounds, 1, body.id⟩)
    | some f =>
      if f.rounds ≤ f.round + 1 then (some body, s.remove n.id)
      else (c.index.node? f.body, s.setRound n.id (f.round + 1))

/-- One node does its work and says which node comes next. -/
def dispatch (n : Node) (w : Walk) : Option Node × Walk :=
  match n.kind with
  | .entry => (c.index.next? n, w)
  | .action none => (c.index.next? n, w)
  | .action (some a) => (c.index.next? n, { w with world := w.world.act c.level a })
  | .condition p => (c.index.branch? n (w.world.ask c.level p), w)
  | .loop r =>
    let (next, loops) := c.enterLoop n r.count w.loops
    (next, { w with loops := loops })
  | .exit => (none, w)

/-- A node is noted before it does its work. -/
def visit (n : Node) (w : Walk) : Option Node × Walk :=
  c.dispatch n { w with steps := w.steps + 1, visited := w.visited.push n.id }

/-- Walks on from a node, for as long as there is a next one, no verdict, and visits are left. -/
def proceed : (visits : Nat) → Option Node → Walk → Walk
  | 0, _, w => w
  | _, none, w => w
  | visits + 1, some n, w =>
    if w.world.isTerminal then w
    else
      let (next, w) := c.visit n w
      proceed visits next w

end Course
end Flowgraph
