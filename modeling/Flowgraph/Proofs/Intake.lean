import Flowgraph.Intake
import Flowgraph.Proofs.Json.Record
import Flowgraph.Proofs.Json.Within
/-!
# Programs by parts

A program is handed in as one text, or as a text of nodes and a text of edges. The text that is made
up of these two is read as the graph of both, so the program runs the same either way.
-/
namespace Flowgraph

open Json

namespace Json

theorem Codec.isWhole_of_read_list {α : Type} {c : Codec α} {d : Doc} {as : List α}
    (h : c.list.read d = .ok as) : d.isWhole = true := by
  cases d with
  | array ds ending =>
    cases ending with
    | closed => rfl
    | cut =>
      rw [read_array] at h
      obtain ⟨bs, -, h⟩ := exists_of_bind_eq_ok h
      cases h
  | _ => cases h

theorem Codec.exists_readFrom {α : Type} {c : Codec α} {text : String} {as : List α}
    (h : c.list.parse text = .ok as) : ∃ d, d.ReadFrom text.toList ∧ c.list.read d = .ok as := by
  obtain ⟨whole, hread⟩ := parse_eq_ok.mp h
  have readFrom := (Doc.readFrom_iff (isWhole_of_read_list hread)).mpr (Prod.ext rfl whole)
  exact ⟨_, readFrom, hread⟩

def Grammar.Entry.ofText (n : String) (d : Doc) (text : String) : Grammar.Entry :=
  ⟨some n, quote n, d, text.toList⟩

theorem Grammar.label_ofText (n : String) (d : Doc) (text : String) :
    Label (Entry.ofText n d text).name (Entry.ofText n d text).nameText := Doc.label_quote n

end Json

namespace Graph

/-- The text of a graph that is made up of the texts of its nodes and of its edges. -/
def textOf (nodes : String) : (edges : Option String) → String
  | none => "\x7b\"nodes\":" ++ nodes ++ "\x7d"
  | some edges => "\x7b\"nodes\":" ++ nodes ++ ",\"edges\":" ++ edges ++ "\x7d"

section
variable {nodes edges : String} {d d' : Doc}

theorem readFrom_textOf_none (hd : d.ReadFrom nodes.toList) :
    (Doc.object [(some "nodes", d)] .closed).ReadFrom (textOf nodes none).toList := by
  have labels : ∀ e ∈ [Grammar.Entry.ofText "nodes" d nodes], Grammar.Label e.name e.nameText :=
    List.forall_mem_singleton.mpr (Grammar.label_ofText _ _ _)
  have values : ∀ e ∈ [Grammar.Entry.ofText "nodes" d nodes], e.value.ReadFrom e.valueText :=
    List.forall_mem_singleton.mpr hd
  have htext : (textOf nodes none).toList =
      '{' :: ((Grammar.Entry.ofText "nodes" d nodes).text ++ ([] ++ ['}'])) := by
    have hopen : "\x7b\"nodes\":".toList = '{' :: (quote "nodes" ++ [':']) := by decide
    simp [textOf, hopen, Grammar.Entry.ofText, Grammar.Entry.text]
  rw [htext]
  exact .members labels values

theorem readFrom_textOf_some (hd : d.ReadFrom nodes.toList) (hd' : d'.ReadFrom edges.toList) :
    (Doc.object [(some "nodes", d), (some "edges", d')] .closed).ReadFrom
      (textOf nodes (some edges)).toList := by
  have labels : ∀ e ∈ [Grammar.Entry.ofText "nodes" d nodes, .ofText "edges" d' edges],
      Grammar.Label e.name e.nameText :=
    List.forall_mem_cons.mpr
      ⟨Grammar.label_ofText _ _ _, List.forall_mem_singleton.mpr (Grammar.label_ofText _ _ _)⟩
  have values : ∀ e ∈ [Grammar.Entry.ofText "nodes" d nodes, .ofText "edges" d' edges],
      e.value.ReadFrom e.valueText :=
    List.forall_mem_cons.mpr ⟨hd, List.forall_mem_singleton.mpr hd'⟩
  have htext : (textOf nodes (some edges)).toList =
      '{' :: ((Grammar.Entry.ofText "nodes" d nodes).text ++
        ([Grammar.Entry.ofText "edges" d' edges].flatMap (fun e => ',' :: e.text) ++ ['}'])) := by
    have hopen : "\x7b\"nodes\":".toList = '{' :: (quote "nodes" ++ [':']) := by decide
    have hnext : ",\"edges\":".toList = ',' :: (quote "edges" ++ [':']) := by decide
    simp [textOf, hopen, hnext, Grammar.Entry.ofText, Grammar.Entry.text]
  rw [htext]
  exact .members labels values

end

section
variable {d d' : Doc} {ns : List Node} {es : List Edge}

theorem place_nodes (hn : Node.codec.list.read d = .ok ns) :
    fields.place fields.blank "nodes" d = some (.ok (some ns, none, ())) :=
  Fields.place_eq_ok.mpr (.inl ⟨rfl, rfl, ns, hn, rfl⟩)

theorem place_edges (he : Edge.codec.list.read d' = .ok es) :
    fields.place (some ns, none, ()) "edges" d' = some (.ok (some ns, some es, ())) := by
  refine Fields.place_eq_ok.mpr (.inr ⟨by decide, (some es, ()), ?_, rfl⟩)
  exact Fields.place_eq_ok.mpr (.inl ⟨rfl, rfl, es, he, rfl⟩)

theorem read_nodes (hn : Node.codec.list.read d = .ok ns) :
    codec.read (.object [(some "nodes", d)] .closed) = .ok ⟨ns, []⟩ := by
  have members : fields.readMembers fields.blank [(some "nodes", d)] =
      .ok (some ns, none, ()) := by
    rw [Fields.readMembers, place_nodes hn]
    rfl
  rw [codec, Codec.map]
  simp only [Fields.read_object, members]
  rfl

theorem read_nodes_edges (hn : Node.codec.list.read d = .ok ns)
    (he : Edge.codec.list.read d' = .ok es) :
    codec.read (.object [(some "nodes", d), (some "edges", d')] .closed) = .ok ⟨ns, es⟩ := by
  have members : fields.readMembers fields.blank [(some "nodes", d), (some "edges", d')] =
      .ok (some ns, some es, ()) := by
    rw [Fields.readMembers, place_nodes hn]
    simp only [Fields.readMembers, place_edges he]
  rw [codec, Codec.map]
  simp only [Fields.read_object, members]
  rfl

end

end Graph

namespace Intake

def readEdges : Option String → Except Fault (List Edge)
  | none => .ok []
  | some edges => Edge.codec.list.parse edges

end Intake

namespace Graph

theorem parse_textOf {nodes : String} {edges : Option String} {ns : List Node} {es : List Edge}
    (hn : Node.codec.list.parse nodes = .ok ns) (he : Intake.readEdges edges = .ok es) :
    codec.parse (textOf nodes edges) = .ok ⟨ns, es⟩ := by
  obtain ⟨d, hd, hns⟩ := Codec.exists_readFrom hn
  cases edges with
  | none =>
    cases he
    rw [Codec.parse_of_readFrom (readFrom_textOf_none hd)]
    exact read_nodes hns
  | some edges =>
    obtain ⟨d', hd', hes⟩ := Codec.exists_readFrom he
    rw [Codec.parse_of_readFrom (readFrom_textOf_some hd hd')]
    exact read_nodes_edges hns hes

end Graph

namespace Intake
variable {nodes level : String} {edges : Option String} {ns : List Node} {es : List Edge} {l : Level}

theorem runParts_eq_ok (hn : Node.codec.list.parse nodes = .ok ns)
    (hl : Level.codec.parse level = .ok l) (he : readEdges edges = .ok es) :
    runParts nodes level edges = .ok (({} : Engine).execute ⟨ns, es⟩ l) := by
  cases edges with
  | none =>
    cases he
    rw [runParts, hn, hl]
    rfl
  | some edges =>
    have hes : Edge.codec.list.parse edges = .ok es := he
    simp only [runParts, hn, hl, hes]
    rfl

theorem run_eq_ok {graph : String} {g : Graph} (hg : Graph.codec.parse graph = .ok g)
    (hl : Level.codec.parse level = .ok l) :
    run graph level none = .ok (({} : Engine).run g l) := by
  simp only [run, Graph.ofText, Level.ofText, hg, hl]
  rfl

/-- A program runs the same by parts as in the text that is made up of its parts. -/
theorem runParts_agrees_with_run (hn : Node.codec.list.parse nodes = .ok ns)
    (hl : Level.codec.parse level = .ok l) (he : readEdges edges = .ok es) :
    Graph.ofText (Graph.textOf nodes edges) = .ok ⟨ns, es⟩ ∧
      ∃ r, run (Graph.textOf nodes edges) level none = .ok r ∧
        runParts nodes level edges = .ok r.outcome := by
  have hg := Graph.parse_textOf hn he
  constructor
  · rw [Graph.ofText, hg]
    rfl
  · exact ⟨({} : Engine).run ⟨ns, es⟩ l, run_eq_ok hg hl, runParts_eq_ok hn hl he⟩

/-- An entry node given as an array, and a step given in the older words. -/
def hallwayNodes : String :=
  "[ [\"in\",\"start\"], \x7b\"type\":\"action\",\"id\":\"go\",\"data\":[\"move\"],\"x\":[1]\x7d ]"

def hallwayEdges : String := "[[\"1\",\"in\",\"go\"]]\n"

def hallwayLevel : String :=
  "[\"h\",\"h\",\"\",[[[\"start\",0,0],[\"goal\",1,0]]],[0,0],\"east\",[1,0],5]"

theorem hallway_agrees :
    Graph.ofText (Graph.textOf hallwayNodes (some hallwayEdges)) =
        .ok ⟨[{ id := "in", kind := .entry }, { id := "go", kind := .action (some (.known .move)) }],
          [⟨"1", "in", "go", none⟩]⟩ ∧
      ∃ r, run (Graph.textOf hallwayNodes (some hallwayEdges)) hallwayLevel none = .ok r ∧
        runParts hallwayNodes hallwayLevel (some hallwayEdges) = .ok r.outcome := by
  have hn : Node.codec.list.parse hallwayNodes =
      .ok [{ id := "in", kind := .entry }, { id := "go", kind := .action (some (.known .move)) }] := by
    decide +kernel
  have hl : Level.codec.parse hallwayLevel =
      .ok (.plain "h" (.ofRows ["SG"]) ⟨0, 0⟩ .east ⟨.clamp 1, 0⟩ 5) := by decide +kernel
  have he : readEdges (some hallwayEdges) = .ok [⟨"1", "in", "go", none⟩] := by decide +kernel
  exact runParts_agrees_with_run hn hl he

end Intake
end Flowgraph
