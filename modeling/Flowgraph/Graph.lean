import Flowgraph.Action
/-!
# Flowgraphs

The program that a player assembles: nodes that do something, and edges that say what comes next.
Ids may repeat and edges may dangle; a graph is whatever was drawn.
-/
namespace Flowgraph

/-- How often a loop runs its body. -/
structure Rounds where
  count : Nat
  pos : 1 ≤ count := by decide
  bounded : count ≤ 4294967295 := by decide
  deriving DecidableEq

def Rounds.clamp (n : Int) : Rounds where
  count := max 1 (min n.toNat 4294967295)
  pos := by omega
  bounded := by omega

@[simp] theorem Rounds.clamp_count (r : Rounds) : Rounds.clamp r.count = r := by
  obtain ⟨n, h, h'⟩ := r
  simp only [Rounds.clamp, Rounds.mk.injEq, Int.toNat_natCast]
  omega

inductive Tag where
  | entry | action | condition | loop | exit
  deriving DecidableEq, Repr

def Tag.all : List Tag := [.entry, .action, .condition, .loop, .exit]

instance : Vocabulary Tag where
  words := [("entry", .entry), ("start", .entry), ("action", .action), ("condition", .condition),
    ("loop", .loop), ("end", .exit), ("exit", .exit)]
  name
    | .entry => "entry"
    | .action => "action"
    | .condition => "condition"
    | .loop => "loop"
    | .exit => "exit"
  lookup_name a := by cases a <;> rfl

/-- What a node does. An action node for which no action was picked is passed through. -/
inductive Kind where
  | entry
  | action (action : Option ActionKey)
  | condition (predicate : Predicate)
  | loop (rounds : Rounds)
  | exit
  deriving DecidableEq

def Kind.tag : Kind → Tag
  | entry => .entry
  | action _ => .action
  | condition _ => .condition
  | loop _ => .loop
  | exit => .exit

structure Node where
  id : String
  kind : Kind
  label : String := ""
  deriving DecidableEq

namespace Node

def tag (n : Node) : Tag := n.kind.tag

def displayName (n : Node) : String := if n.label.isEmpty then n.id else n.label

def action? (n : Node) : Option ActionKey :=
  match n.kind with
  | .action a => a
  | _ => none

end Node

instance : Vocabulary Bool where
  words := [("true", true), ("false", false)]
  name
    | true => "true"
    | false => "false"
  lookup_name b := by cases b <;> rfl

structure Edge where
  id : String
  source : String
  target : String
  /-- The side that the edge is marked for, when it leaves a condition. -/
  branch : Option Bool := none
  deriving DecidableEq

structure Graph where
  nodes : List Node := []
  edges : List Edge := []
  deriving DecidableEq

namespace Graph
variable (g : Graph)

/-- The first declaration of an id is the one that counts. -/
def node? (id : String) : Option Node := g.nodes.find? (·.id == id)

def nodesOf (tag : Tag) : List Node := g.nodes.filter (·.tag == tag)

def entryNode? : Option Node := (g.nodesOf .entry).head?

def outgoing (id : String) : List Edge := g.edges.filter (·.source == id)

end Graph
end Flowgraph
