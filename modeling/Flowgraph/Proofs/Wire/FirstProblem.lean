import Flowgraph.Intake
import Flowgraph.Proofs.Json.Commit
/-!
# The first problem of a text

Every codec of the wire commits itself to the first problem that it meets. So once a text has shown a
problem of its content, nothing that is written after it hides the problem or shows another. The same
holds of a word whose name is no string, with what was seen in place of the name.
-/
namespace Flowgraph

open Json Codec

theorem Payload.codec_commits : Commits codec.read := by
  have commits : fields.Commits :=
    ⟨nullable_commits text_commits, nullable_commits text_commits,
      nullable_commits (integer_commits _ _ _), trivial⟩
  exact map_commits (Fields.codec_commits commits _) _ _

theorem Node.codec_commits : Commits codec.read := by
  have commits : fields.Commits :=
    ⟨text_commits, word_commits, text_commits, nullable_commits Payload.codec_commits, trivial⟩
  exact map_commits (Fields.codec_commits commits _) _ _

theorem Edge.codec_commits : Commits codec.read := by
  have commits : fields.Commits :=
    ⟨text_commits, text_commits, text_commits, nullable_commits text_commits,
      nullable_commits text_commits, trivial⟩
  exact map_commits (Fields.codec_commits commits _) _ _

theorem Graph.codec_commits : Commits codec.read := by
  have commits : fields.Commits :=
    ⟨list_commits Node.codec_commits, list_commits Edge.codec_commits, trivial⟩
  exact map_commits (Fields.codec_commits commits _) _ _

theorem Coord.codec_commits : Commits codec.read := integer_commits _ _ _

theorem Position.codec_commits : Commits codec.read := by
  have commits : fields.Commits := ⟨Coord.codec_commits, Coord.codec_commits, trivial⟩
  exact map_commits (Fields.codec_commits commits _) _ _

theorem Cell.codec_commits : Commits codec.read := by
  have commits : fields.Commits :=
    ⟨word_commits, Coord.codec_commits, Coord.codec_commits, trivial⟩
  exact map_commits (Fields.codec_commits commits _) _ _

theorem Grid.codec_commits : Commits codec.read :=
  map_commits (list_commits (list_commits Cell.codec_commits)) _ _

theorem Level.codec_commits : Commits codec.read := by
  have count : Commits count.read := integer_commits _ _ _
  have texts : Commits Codec.text.list.read := list_commits text_commits
  have commits : fields.Commits :=
    ⟨text_commits, text_commits, text_commits, Grid.codec_commits, Position.codec_commits,
      word_commits, Position.codec_commits, count, nullable_commits count,
      nullable_commits word_commits, nullable_commits texts, nullable_commits texts, trivial⟩
  exact map_commits (Fields.codec_commits commits _) _ _

theorem Character.codec_commits : Commits codec.read := by
  have commits : fields.Commits := ⟨Position.codec_commits, word_commits, trivial⟩
  exact map_commits (Fields.codec_commits commits _) _ _

theorem World.codec_commits : Commits codec.read := by
  have count : Commits count.read := integer_commits _ _ _
  have commits : fields.Commits :=
    ⟨Character.codec_commits, Grid.codec_commits, count, bool_commits, bool_commits,
      nullable_commits word_commits, nullable_commits word_commits, trivial⟩
  exact map_commits (Fields.codec_commits commits _) _ _

theorem Graph.ofText_eq_error {text : String} {f : Fault} :
    ofText text = .error (.graph f) ↔ codec.parse text = .error f := by
  rw [ofText]
  cases codec.parse text <;> simp [Except.mapError]

theorem Level.ofText_eq_error {text : String} {f : Fault} :
    ofText text = .error (.level f) ↔ codec.parse text = .error f := by
  rw [ofText]
  cases codec.parse text <;> simp [Except.mapError]

/-- A text with a problem of its content has that problem however it goes on after a blank. Of the
problems of its grammar, the one that keeps what was seen is covered as well. -/
theorem first_problem_wins (text more : String) {f : Fault} (hf : f ≠ .malformed) :
    (Graph.ofText text = .error (.graph f) →
        Graph.ofText (text ++ " " ++ more) = .error (.graph f)) ∧
      (Level.ofText text = .error (.level f) →
        Level.ofText (text ++ " " ++ more) = .error (.level f)) ∧
      (Node.codec.list.parse text = .error f →
        Node.codec.list.parse (text ++ " " ++ more) = .error f) ∧
      (Edge.codec.list.parse text = .error f →
        Edge.codec.list.parse (text ++ " " ++ more) = .error f) ∧
      (World.codec.parse text = .error f →
        World.codec.parse (text ++ " " ++ more) = .error f) := by
  refine ⟨?graph, ?level, ?nodes, ?edges, ?world⟩
  case graph =>
    rw [Graph.ofText_eq_error, Graph.ofText_eq_error]
    exact firstProblemWins_of_commits Graph.codec_commits text more f hf
  case level =>
    rw [Level.ofText_eq_error, Level.ofText_eq_error]
    exact firstProblemWins_of_commits Level.codec_commits text more f hf
  case nodes => exact firstProblemWins_of_commits (list_commits Node.codec_commits) text more f hf
  case edges => exact firstProblemWins_of_commits (list_commits Edge.codec_commits) text more f hf
  case world => exact firstProblemWins_of_commits World.codec_commits text more f hf

/-- A word that is no tag stops a graph in the middle of a node, a cell that is too short stops a level
in the middle of its grid, and a number in place of a tag's name stops a list of nodes. What follows is
no JSON, or would have been a problem as well. -/
theorem problems_in_the_middle :
    Graph.ofText ("\x7b\"nodes\":[\x7b\"id\":\"a\",\"kind\":\"jump\"" ++ " " ++ ",\"id\":7]") =
        .error (.graph (.unknownVariant "jump"
          ["entry", "start", "action", "condition", "loop", "end", "exit"])) ∧
      Level.ofText ("[\"one\",\"One\",\"\",[[[\"wall\",3]" ++ " " ++ ",[]],[],") =
        .error (.level (.invalidLength 2 "struct Cell with 3 elements")) ∧
      Node.codec.list.parse ("[\x7b\"id\":\"a\",\"kind\":\x7b5" ++ " " ++ ":null,\"id\":7]") =
        .error (.misnamed (.integer 5)) := by
  refine ⟨?tag, ?cell, ?name⟩
  case tag =>
    have stopped : Graph.ofText "\x7b\"nodes\":[\x7b\"id\":\"a\",\"kind\":\"jump\"" =
        .error (.graph (.unknownVariant "jump"
          ["entry", "start", "action", "condition", "loop", "end", "exit"])) := by decide +kernel
    have content : Fault.unknownVariant "jump"
        ["entry", "start", "action", "condition", "loop", "end", "exit"] ≠ .malformed := nofun
    exact (first_problem_wins _ ",\"id\":7]" content).1 stopped
  case cell =>
    have stopped : Level.ofText "[\"one\",\"One\",\"\",[[[\"wall\",3]" =
        .error (.level (.invalidLength 2 "struct Cell with 3 elements")) := by decide +kernel
    have content : Fault.invalidLength 2 "struct Cell with 3 elements" ≠ .malformed := nofun
    exact (first_problem_wins _ ",[]],[]," content).2.1 stopped
  case name =>
    have stopped : Node.codec.list.parse "[\x7b\"id\":\"a\",\"kind\":\x7b5" =
        .error (.misnamed (.integer 5)) := by decide +kernel
    have content : Fault.misnamed (.integer 5) ≠ .malformed := nofun
    exact (first_problem_wins _ ":null,\"id\":7]" content).2.2.1 stopped

end Flowgraph
