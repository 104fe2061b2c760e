import Flowgraph.Advice
import Flowgraph.Digest.Sha256
import Flowgraph.Validation
import Flowgraph.Wire.Diagnostics
import Flowgraph.Wire.Graph
import Flowgraph.Wire.Run
/-!
# Intake

Graphs, levels and configurations as hosts hand them in: as JSON texts. The first text that cannot
be used is the answer.
-/
namespace Flowgraph

open Json

inductive Refusal where
  | graph (why : Fault)
  | level (why : Fault)
  | config (why : Fault)
  | zeroCeiling
  deriving DecidableEq

namespace Refusal

def kind : Refusal → String
  | graph _ => "graph"
  | level _ => "level"
  | config _ | zeroCeiling => "config"

def message : Refusal → String
  | graph f => s!"invalid graph JSON: {f.message}"
  | level f => s!"invalid level JSON: {f.message}"
  | config f => s!"invalid engine config JSON: {f.message}"
  | zeroCeiling => "maxExecutionSteps must be > 0"

end Refusal

def Graph.ofText (text : String) : Except Refusal Graph :=
  (Graph.codec.parse text).mapError .graph

/-- A digest of what a graph says, taken of its compact text. However a graph was spelt when it was
read, its fingerprint is the same; the order of nodes and edges counts. -/
def Graph.fingerprint (g : Graph) : String :=
  Sha256.hexDigest (Graph.codec.print g).toUTF8.toList

def Level.ofText (text : String) : Except Refusal Level :=
  (Level.codec.parse text).mapError .level

namespace Text

/-- The characters with the property White_Space. -/
def isBlank (c : Char) : Bool :=
  let n := c.toNat
  (0x9 ≤ n && n ≤ 0xd) || n = 0x20 || n = 0x85 || n = 0xa0 || n = 0x1680 ||
    (0x2000 ≤ n && n ≤ 0x200a) || n = 0x2028 || n = 0x2029 || n = 0x202f || n = 0x205f || n = 0x3000

def trim (s : String) : String :=
  String.ofList ((s.toList.dropWhile isBlank).reverse.dropWhile isBlank).reverse

end Text

/-- A blank text is no text. -/
def Config.given (text : Option String) : Option String :=
  (text.map Text.trim).filter (!·.isEmpty)

def Config.ofText (text : Option String) : Except Refusal Config :=
  match Config.given text with
  | none => .ok {}
  | some t => (Config.codec.parse t).mapError .config

def Engine.ofConfig (c : Config) : Except Refusal Engine :=
  match Engine.ofConfig? c with
  | some e => .ok e
  | none => .error .zeroCeiling

def Engine.ofText (text : Option String) : Except Refusal Engine :=
  (Config.ofText text).bind Engine.ofConfig

namespace Intake

/-- A text that is no graph is an invalid graph. -/
def validate (graph : String) : Verdict :=
  match Graph.ofText graph with
  | .ok g => g.validate
  | .error r => ⟨false, [r.message]⟩

def diagnose (graph : String) : Except Refusal Diagnostics := (Graph.ofText graph).map Graph.diagnose

def reach (graph : String) : Except Refusal (List Node) := (Graph.ofText graph).map Graph.reach

def fingerprint (graph : String) : Except Refusal String :=
  (Graph.ofText graph).map Graph.fingerprint

def run (graph level : String) (config : Option String) : Except Refusal Report := do
  let g ← Graph.ofText graph
  let l ← Level.ofText level
  let e ← Engine.ofText config
  return e.run g l

def checkLevel (graph level : String) : Except Refusal Diagnostics := do
  let g ← Graph.ofText graph
  let l ← Level.ofText level
  return l.check g

inductive PartRefusal where
  | nodes (why : Fault)
  | level (why : Fault)
  | edges (why : Fault)
  deriving DecidableEq

namespace PartRefusal

def kind : PartRefusal → String
  | nodes _ => "nodes"
  | level _ => "level"
  | edges _ => "edges"

def message : PartRefusal → String
  | nodes f | level f | edges f => f.message

end PartRefusal

/-- Runs a program whose nodes and edges come in texts of their own, under the usual ceiling. A
program without a text of edges has none. -/
def runParts (nodes level : String) (edges : Option String) : Except PartRefusal Outcome := do
  let ns ← (Node.codec.list.parse nodes).mapError .nodes
  let l ← (Level.codec.parse level).mapError .level
  let es ← match edges with
    | none => pure []
    | some t => (Edge.codec.list.parse t).mapError .edges
  return ({} : Engine).execute ⟨ns, es⟩ l

end Intake
end Flowgraph
