import Std.Data.TreeSet
import Flowgraph.Finding
import Flowgraph.Reach
/-!
# Validation

What is wrong with a graph, without running it. Nothing stops at the first finding, and a run never
asks for them. The errors come first: a missing entry or exit, dangling edges, loose parts. The
warnings follow: duplicate ids, incomplete or unknown payloads, nodes out of reach.
-/
namespace Flowgraph

/-- A graph, with what is looked up in it over and over. -/
structure Survey where
  graph : Graph
  ids : Std.TreeSet String
  linked : Std.TreeSet String
  degrees : Std.TreeMap String Nat

namespace Survey

def addId (s : Std.TreeSet String) (n : Node) : Std.TreeSet String := s.insert n.id

def addEnds (s : Std.TreeSet String) (e : Edge) : Std.TreeSet String :=
  (s.insert e.source).insert e.target

def countSource (m : Std.TreeMap String Nat) (e : Edge) : Std.TreeMap String Nat :=
  m.insert e.source (m.getD e.source 0 + 1)

def ofGraph (g : Graph) : Survey where
  graph := g
  ids := g.nodes.foldl addId ∅
  linked := g.edges.foldl addEnds ∅
  degrees := g.edges.foldl countSource ∅

variable (s : Survey)

def outDegree (id : String) : Nat := s.degrees.getD id 0

def entryAndExit : List Finding :=
  let entries := (s.graph.nodesOf .entry).length
  (if entries = 0 then [.noEntry] else if 1 < entries then [.multipleEntries entries] else []) ++
    (if (s.graph.nodesOf .exit).isEmpty then [.noExit] else [])

def danglingEnds (e : Edge) : List Finding :=
  (if s.ids.contains e.source then [] else [.unknownSource e]) ++
    (if s.ids.contains e.target then [] else [.unknownTarget e])

def deadEntry : List Finding :=
  match s.graph.entryNode? with
  | none => []
  | some e => if s.outDegree e.id = 0 then [.entryWithoutOutgoing e] else []

def deadExits : List Finding :=
  let exits := s.graph.nodesOf .exit
  if exits.isEmpty || exits.any (fun x => s.graph.edges.any (·.target == x.id)) then []
  else [.exitWithoutIncoming]

def loose (n : Node) : List Finding :=
  if n.tag = .entry || n.tag = .exit || s.linked.contains n.id then [] else [.disconnected n]

/-- The second declaration of each id that has one. -/
def secondDeclarations (seen reported : Std.TreeSet String) : List Node → List Node
  | [] => []
  | n :: ns =>
    if seen.contains n.id then
      if reported.contains n.id then secondDeclarations seen reported ns
      else n :: secondDeclarations seen (reported.insert n.id) ns
    else secondDeclarations (seen.insert n.id) reported ns

/-- No id should be declared twice. It is reported once, however often it is. -/
def duplicates : List Finding := (secondDeclarations ∅ ∅ s.graph.nodes).map .duplicateId

def incomplete (n : Node) : List Finding :=
  match n.kind with
  | .entry | .exit => []
  | .action none => [.missingAction n]
  | .action (some a) => if a.isKnown then [] else [.unknownAction n a.word]
  | .condition p =>
    (if p.isKnown then [] else [.unknownPredicate n p.word]) ++
      (if s.outDegree n.id < 2 then [.missingBranch n] else [])
  | .loop _ => if s.outDegree n.id = 1 then [.loopSingleEdge n] else []

/-- Every linked node should be in reach. A node without a link is an error already. -/
def outOfReach : List Finding :=
  match s.graph.entryNode? with
  | none => []
  | some _ =>
    let reached := s.graph.reach.foldl addId ∅
    (s.graph.nodes.filter fun n => !reached.contains n.id && s.linked.contains n.id).map
      .unreachable

def findings : List Finding :=
  s.entryAndExit ++ s.graph.edges.flatMap s.danglingEnds ++
    (s.deadEntry ++ s.deadExits ++ s.graph.nodes.flatMap s.loose) ++
    s.duplicates ++ s.graph.nodes.flatMap s.incomplete ++ s.outOfReach

end Survey

namespace Graph

def findings (g : Graph) : List Finding := (Survey.ofGraph g).findings

def validateInto (g : Graph) (ds : Diagnostics) : Diagnostics :=
  ds.pushAll (g.findings.map Finding.diagnostic)

def diagnose (g : Graph) : Diagnostics := g.validateInto {}

def validate (g : Graph) : Verdict := g.diagnose.verdict

end Graph
end Flowgraph
