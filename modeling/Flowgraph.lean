import Flowgraph.Action
import Flowgraph.Advice
import Flowgraph.Diagnostic
import Flowgraph.Digest.Sha256
import Flowgraph.Finding
import Flowgraph.Graph
import Flowgraph.Grid
import Flowgraph.Index
import Flowgraph.Intake
import Flowgraph.Json.Codec
import Flowgraph.Json.Doc
import Flowgraph.Json.Fault
import Flowgraph.Json.Numeral
import Flowgraph.Json.Printer
import Flowgraph.Json.Record
import Flowgraph.Json.Token
import Flowgraph.Level
import Flowgraph.Loops
import Flowgraph.Numeric.Dyadic
import Flowgraph.Numeric.Shortest
import Flowgraph.Palette
import Flowgraph.Position
import Flowgraph.Proofs.Advice
import Flowgraph.Proofs.Diagnostics
import Flowgraph.Proofs.Json.Codec
import Flowgraph.Proofs.Json.Doc
import Flowgraph.Proofs.Json.Grammar
import Flowgraph.Proofs.Json.Numeral
import Flowgraph.Proofs.Json.Printer
import Flowgraph.Proofs.Json.Record
import Flowgraph.Proofs.Json.Token
import Flowgraph.Proofs.Reach
import Flowgraph.Proofs.Run.Ceiling
import Flowgraph.Proofs.Run.Ending
import Flowgraph.Proofs.Run.Invariant
import Flowgraph.Proofs.Run.Livelock
import Flowgraph.Proofs.Run.Moment
import Flowgraph.Proofs.Run.Path
import Flowgraph.Proofs.Run.Prune
import Flowgraph.Proofs.Run.Rounds
import Flowgraph.Proofs.Run.Stage
import Flowgraph.Proofs.Validation.Errors
import Flowgraph.Proofs.Validation.Survey
import Flowgraph.Proofs.Wire.Graph
import Flowgraph.Proofs.World.Act
import Flowgraph.Reach
import Flowgraph.Run
import Flowgraph.Run.Message
import Flowgraph.Run.Walk
import Flowgraph.Text.Quoted
import Flowgraph.Validation
import Flowgraph.Vocabulary
import Flowgraph.Wire.Diagnostics
import Flowgraph.Wire.Graph
import Flowgraph.Wire.Level
import Flowgraph.Wire.Run
import Flowgraph.World
import Flowgraph.Proofs.Run.Cutoff
import Flowgraph.Proofs.Run.Guard
import Flowgraph.Proofs.Run.Onward
import Flowgraph.Proofs.Run.Repeats
import Flowgraph.Proofs.Run.Budget
import Flowgraph.Proofs.Run.Replay
import Flowgraph.Proofs.Run.Mirror
import Flowgraph.Proofs.Run.Renaming
import Flowgraph.Proofs.Run.Reordering
import Flowgraph.Proofs.Run.Scenery
import Flowgraph.Proofs.Wire.RoundTrip
import Flowgraph.Proofs.Digest.Sha256
import Flowgraph.Proofs.Fingerprint
import Flowgraph.Proofs.Json.Member
import Flowgraph.Proofs.Json.Edit
import Flowgraph.Proofs.Wire.Sides
import Flowgraph.Proofs.Wire.Edits
import Flowgraph.Proofs.Wire.Compatibility
import Flowgraph.Proofs.Reach.BreadthFirst
import Flowgraph.Proofs.Validation.Strays
import Flowgraph.Proofs.Json.Commit
import Flowgraph.Proofs.Wire.FirstProblem
import Flowgraph.Proofs.Json.Within
import Flowgraph.Proofs.Intake
import Flowgraph.Proofs.Run.Marks
import Flowgraph.Proofs.World.Foresight
import Flowgraph.Proofs.Validation.Duplicates
import Flowgraph.Proofs.Validation.Warnings
import Flowgraph.Proofs.Bearing
import Flowgraph.Proofs.Run.Beeline
import Flowgraph.Proofs.Validation.Gathering
import Flowgraph.Proofs.Advice.Report
import Flowgraph.Proofs.Json.Positional
import Flowgraph.Proofs.Wire.Positional
import Flowgraph.Proofs.Run.StraightLine
import Flowgraph.Proofs.World.Verdict
import Flowgraph.Proofs.Index
import Flowgraph.Proofs.Loops
import Flowgraph.Proofs.Run.OpenLoops
import Flowgraph.Proofs.Numeric.Dyadic
import Flowgraph.Proofs.Run.Grade
import Flowgraph.Proofs.Grid
