import Flowgraph.Graph
import Flowgraph.Json.Printer
import Flowgraph.Run
/-!
# Palette

A table of everything that an editor can offer: the kinds of nodes, the actions and the predicates,
each with a description.
-/
namespace Flowgraph

open Json

def engineVersion : String := "0.1.0"

namespace Tag

def description : Tag → String
  | entry => "Where the algorithm starts. Exactly one per graph."
  | action => "Performs one action. Each action costs one step."
  | condition => "Asks a yes/no question and follows the true or the false edge"
  | loop => "Repeats the node connected by its first edge a fixed number of times"
  | exit => "Ends the algorithm"

def payloadField? : Tag → Option String
  | action => some "actionKind"
  | condition => some "predicateId"
  | loop => some "iterations"
  | entry | exit => none

end Tag

def Action.description : Action → String
  | move => "Step one cell forward. Hitting a wall or the map edge fails the run."
  | turnLeft => "Turn 90° counter-clockwise in place"
  | turnRight => "Turn 90° clockwise in place"
  | wait => "Do nothing for one step"

def Question.description : Question → String
  | wallAhead => "True when the cell ahead is a wall or off the map"
  | canMove => "True when the cell ahead is open"
  | atGoal => "True when standing on the goal"
  | notAtGoal => "True when not yet on the goal"

namespace Palette

def nodeKind (t : Tag) : Doc :=
  .record
    [("description", .string t.description),
      ("kind", .string (Vocabulary.name t)),
      ("payload", (t.payloadField?.map Doc.string).getD .null)]

def action (a : Action) : Doc :=
  .record [("description", .string a.description), ("key", .string (Vocabulary.name a))]

def predicate (q : Question) : Doc :=
  .record
    [("default", .bool (q = .default)),
      ("description", .string q.description),
      ("key", .string (Vocabulary.name q))]

/-- The whole table. Members are in alphabetical order. -/
def table : Doc :=
  .record
    [("actions", .list (Action.all.map action)),
      ("maxExecutionSteps", .int ({} : Config).maxExecutionSteps.toNat),
      ("nodeKinds", .list (Tag.all.map nodeKind)),
      ("predicates", .list (Question.all.map predicate)),
      ("version", .string engineVersion)]

def text : String := table.pretty

end Palette
end Flowgraph
