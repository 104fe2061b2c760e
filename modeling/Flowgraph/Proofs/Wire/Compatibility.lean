import Flowgraph.Intake
import Flowgraph.Proofs.Wire.Edits
/-!
# Documents from other editors

Graphs and levels come from editors of all ages. Older ones had other names for the same things, and
newer ones may say more than is asked for, in an order of their own. None of this is noticed.
-/
namespace Flowgraph

open Json

/-- Nothing tells the texts apart when they are handed in as graphs. -/
structure Graph.Alike (text text' : String) : Prop where
  parse : Graph.codec.parse text = Graph.codec.parse text'
  fingerprint : Intake.fingerprint text = Intake.fingerprint text'
  validate : Intake.validate text = Intake.validate text'
  run : ∀ level config, Intake.run text level config = Intake.run text' level config

structure Level.Alike (text text' : String) : Prop where
  parse : Level.codec.parse text = Level.codec.parse text'
  run : ∀ graph config, Intake.run graph text config = Intake.run graph text' config

theorem Graph.alike_of_parse {text text' : String}
    (h : Graph.codec.parse text = Graph.codec.parse text') : Graph.Alike text text' := by
  have hgraph : Graph.ofText text = Graph.ofText text' := by rw [ofText, ofText, h]
  constructor
  · exact h
  · rw [Intake.fingerprint, Intake.fingerprint, hgraph]
  · rw [Intake.validate, Intake.validate, hgraph]
  · intro level config
    rw [Intake.run, Intake.run, hgraph]

theorem Level.alike_of_parse {text text' : String}
    (h : Level.codec.parse text = Level.codec.parse text') : Level.Alike text text' := by
  have hlevel : Level.ofText text = Level.ofText text' := by rw [ofText, ofText, h]
  constructor
  · exact h
  · intro graph config
    rw [Intake.run, Intake.run, hlevel]

/-- An old name and the new one stand for one field, which is given once. -/
structure NamesExclusive : Prop where
  tag : Node.codec.RefusesRepeats "kind" ["type"]
  payload : Node.codec.RefusesRepeats "payload" ["data"]
  action : Payload.codec.RefusesRepeats "actionKind" ["action"]
  predicate : Payload.codec.RefusesRepeats "predicateId" ["condition"]
  iterations : Payload.codec.RefusesRepeats "iterations" ["loopCount"]
  branch : Edge.codec.RefusesRepeats "branch" ["sourceHandle"]
  cell : Cell.codec.RefusesRepeats "kind" ["type"]

theorem names_exclusive : NamesExclusive where
  tag := (Fields.codec_refusesRepeats (by decide) _).map _ _
  payload := (Fields.codec_refusesRepeats (by decide) _).map _ _
  action := (Fields.codec_refusesRepeats (by decide) _).map _ _
  predicate := (Fields.codec_refusesRepeats (by decide) _).map _ _
  iterations := (Fields.codec_refusesRepeats (by decide) _).map _ _
  branch := (Fields.codec_refusesRepeats (by decide) _).map _ _
  cell := (Fields.codec_refusesRepeats (by decide) _).map _ _

/-- Old and new names say the same, in any mixture, be it a value or a fault that comes of them. -/
theorem vocabularies_agree :
    (∀ d d' text text', d.SpeltAs text → d'.SpeltAs text' →
        Relation.EqvGen (Graph.Edited .respell) d d' → Graph.Alike text text') ∧
      (∀ d d' text text', d.SpeltAs text → d'.SpeltAs text' →
        Relation.EqvGen (Level.Edited .respell) d d' → Level.Alike text text') ∧
      (∀ d d' text text', d.SpeltAs text → d'.SpeltAs text' → Edge.Relabelled d d' →
        Edge.codec.parse text = Edge.codec.parse text') ∧
      NamesExclusive := by
  refine ⟨?graph, ?level, ?edge, names_exclusive⟩
  case graph =>
    intro d d' text text' hd hd' edited
    exact Graph.alike_of_parse ((Graph.codec_tolerates .respell).parse_eq hd hd' edited)
  case level =>
    intro d d' text text' hd hd' edited
    exact Level.alike_of_parse ((Level.codec_tolerates .respell).parse_eq hd hd' edited)
  case edge =>
    intro d d' text text' hd hd' relabelled
    rw [Codec.parse_of_speltAs hd, Codec.parse_of_speltAs hd']
    exact relabelled.read_eq

def olderNode : Doc :=
  .record [("id", .string "a"), ("type", .string "start"), ("data", .record [("condition", .null)])]

def newerNode : Doc :=
  .record
    [("id", .string "a"), ("kind", .string "entry"), ("payload", .record [("predicateId", .null)])]

def labelledEdge : Doc :=
  .record
    [("source", .string "a"), ("label", .string "false"), ("target", .string "a"),
      ("sourceHandle", .null)]

def branchedEdge : Doc :=
  .record [("source", .string "a"), ("target", .string "a"), ("branch", .string "false")]

def sketch (node edge : Doc) : Doc :=
  .record [("nodes", .list [node]), ("edges", .list [edge])]

def lavaLevel (name : String) : Doc :=
  .record [("grid", .list [.list [.record [(name, .string "lava")]]])]

theorem sketch_writable {node edge : Doc} (hnode : node.Writable) (hedge : edge.Writable) :
    (sketch node edge).Writable := .record (by simp [Doc.Writable.list, hnode, hedge])

theorem lavaLevel_writable (name : String) : (lavaLevel name).Writable := by
  have cell : (Doc.record [(name, .string "lava")]).Writable :=
    .record (by simp [Doc.Writable.string])
  have row : (Doc.list [.record [(name, .string "lava")]]).Writable := .list (by simp [cell])
  exact .record (by simp [Doc.Writable.list, row])

theorem olderNode_respelt : Node.Edited .respell olderNode newerNode := by
  have tag : Tag.Edited .respell (.string "start") (.string "entry") :=
    .word rfl ⟨["entry", "start"], by simp, by simp, by simp⟩
  have payload : Payload.Edited .respell (.record [("condition", .null)])
      (.record [("predicateId", .null)]) := by
    apply Edit.Record.respelt
    exact .cons (.field (.tail _ (.head _)) (by simp) (by simp) (.inr rfl) rfl) .nil
  apply Edit.Record.respelt
  refine .cons (.same _) (.cons ?_ (.cons ?_ .nil))
  · exact .field (.tail _ (.head _)) (by simp) (by simp) (.inr rfl) tag
  · exact .field (.tail _ (.tail _ (.tail _ (.head _)))) (by simp) (by simp) (.inr rfl) payload

theorem labelledEdge_relabelled : Edge.Relabelled labelledEdge branchedEdge := by
  refine .members (.other ?_ (.label (.other ?_ (.branch ?_ .nil)))) .null
    (.other ?_ (.other ?_ (.branch ?_ .nil))) <;> simp [Edge.branchNames]

theorem lavaLevel_respelt : Level.Edited .respell (lavaLevel "type") (lavaLevel "kind") := by
  have cell : Cell.Edited .respell (.record [("type", .string "lava")])
      (.record [("kind", .string "lava")]) := by
    apply Edit.Record.respelt
    exact .cons (.field (.head _) (by simp) (by simp) (.inr rfl) rfl) .nil
  have grid : Grid.Edited .respell (.list [.list [.record [("type", .string "lava")]]])
      (.list [.list [.record [("kind", .string "lava")]]]) :=
    .items (.cons (.items (.cons cell .nil)) .nil)
  apply Edit.Record.respelt
  refine .cons ?_ .nil
  exact .field (.tail _ (.tail _ (.tail _ (.head _)))) (by simp) (by simp) (.inl rfl) grid

theorem sketch_respelt : Graph.Edited .respell (sketch olderNode labelledEdge)
    (sketch newerNode branchedEdge) := by
  apply Edit.Record.respelt
  refine .cons ?nodes (.cons ?edges .nil)
  case nodes =>
    exact .field (.head _) (by simp) (by simp) (.inl rfl) (.items (.cons olderNode_respelt .nil))
  case edges =>
    have edge : Edge.Edited .respell labelledEdge branchedEdge :=
      .inr ⟨rfl, labelledEdge_relabelled⟩
    exact .field (.tail _ (.head _)) (by simp) (by simp) (.inl rfl) (.items (.cons edge .nil))

theorem sketches_agree :
    (Graph.Edited .respell (sketch olderNode labelledEdge) (sketch newerNode branchedEdge) ∧
        Graph.Alike (sketch olderNode labelledEdge).render (sketch newerNode branchedEdge).render ∧
        Graph.codec.parse (sketch olderNode labelledEdge).render =
          .ok ⟨[⟨"a", .entry, ""⟩], [⟨"", "a", "a", some false⟩]⟩) ∧
      (Level.Edited .respell (lavaLevel "type") (lavaLevel "kind") ∧
        Level.Alike (lavaLevel "type").render (lavaLevel "kind").render ∧
        Level.codec.parse (lavaLevel "type").render =
          .error (.unknownVariant "lava" ["empty", "wall", "treasure", "start", "goal"])) ∧
      (Edge.Relabelled labelledEdge branchedEdge ∧
        Edge.codec.parse labelledEdge.render = Edge.codec.parse branchedEdge.render) ∧
      Node.codec.read (.object
          [(some "kind", .string "loop"), (some "type", .string "loop")] .closed) =
        .error (.duplicateField "kind") := by
  have hlabelled : labelledEdge.Writable :=
    .record (by simp [Doc.Writable.string, Doc.Writable.null])
  have hbranched : branchedEdge.Writable := .record (by simp [Doc.Writable.string])
  have holder : (sketch olderNode labelledEdge).SpeltAs (sketch olderNode labelledEdge).render := by
    have data : (Doc.record [("condition", .null)]).Writable := .record (by simp [Doc.Writable.null])
    have node : olderNode.Writable := .record (by simp [Doc.Writable.string, data])
    exact Doc.speltAs_render (sketch_writable node hlabelled)
  have hnewer : (sketch newerNode branchedEdge).SpeltAs (sketch newerNode branchedEdge).render := by
    have payload : (Doc.record [("predicateId", .null)]).Writable :=
      .record (by simp [Doc.Writable.null])
    have node : newerNode.Writable := .record (by simp [Doc.Writable.string, payload])
    exact Doc.speltAs_render (sketch_writable node hbranched)
  have hlevel (name : String) : (lavaLevel name).SpeltAs (lavaLevel name).render :=
    Doc.speltAs_render (lavaLevel_writable name)
  obtain ⟨graphs, levels, edges, exclusive⟩ := vocabularies_agree
  refine ⟨⟨sketch_respelt, ?graph, ?value⟩, ⟨lavaLevel_respelt, ?level, ?fault⟩,
    ⟨labelledEdge_relabelled, ?edge⟩, ?repeated⟩
  case graph => exact graphs _ _ _ _ holder hnewer (.rel _ _ sketch_respelt)
  case value =>
    rw [Codec.parse_of_speltAs holder]
    rfl
  case level => exact levels _ _ _ _ (hlevel _) (hlevel _) (.rel _ _ lavaLevel_respelt)
  case fault =>
    rw [Codec.parse_of_speltAs (hlevel "type")]
    rfl
  case edge =>
    exact edges _ _ _ _ (Doc.speltAs_render hlabelled) (Doc.speltAs_render hbranched)
      labelledEdge_relabelled
  case repeated =>
    rcases exclusive.tag [(some "kind", .string "loop")] "kind" _ "type" (.string "loop") [] .closed
      (.head _) (by simp) (by simp) with repeated | ⟨fault, failed⟩
    · exact repeated
    · -- No fault comes before, because with an id after them the members would be a node.
      cases failed [(some "id", .string "a")] .closed

/-- Graphs, levels and worlds may say more than is asked for, in any order. -/
theorem forward_compatible :
    Graph.codec.Forward Graph.Edited ∧ Level.codec.Forward Level.Edited ∧
      World.codec.Forward World.Edited := by
  refine ⟨?_, ?_, ?_⟩
  · exact Codec.forward_of_tolerates Graph.codec_tolerates
  · exact Codec.forward_of_tolerates Level.codec_tolerates
  · exact Codec.forward_of_tolerates World.codec_tolerates

def plainNode : Doc := .record [("id", .string "a"), ("kind", .string "entry")]

def turnedNode : Doc := .record [("kind", .string "entry"), ("id", .string "a")]

def loneNode (node : Doc) : Doc := .record [("nodes", .list [node])]

def weightedGraph : Doc := .record [("weight", .number "1e999"), ("nodes", .list [plainNode])]

def weightedText : String :=
  "\x7b\"weight\":1e999,\"nodes\":[\x7b\"id\":\"a\",\"kind\":\"entry\"\x7d]\x7d"

theorem huge_value : Grammar.Value (.number "1e999") ['1', 'e', '9', '9', '9'] := by
  have whole : Grammar.Whole ['1'] := .digits rfl (by decide) (List.forall_mem_nil _)
  have exponent : Grammar.Exponent ['e', '9', '9', '9'] :=
    .digits (.inl rfl) (.inl rfl) rfl (by simp [Grammar.Digits])
  exact .number (.mk (.inl rfl) whole .none exponent)

def weight : Grammar.Entry :=
  ⟨some "weight", quote "weight", .number "1e999", ['1', 'e', '9', '9', '9']⟩

theorem weightedGraph_speltAs : weightedGraph.SpeltAs weightedText := by
  have node : plainNode.Writable := .record (by simp [Doc.Writable.string])
  have nodes : (Doc.list [plainNode]).Writable := .list (by simp [node])
  have labels : ∀ e ∈ [weight, Doc.entry ("nodes", .list [plainNode])],
      Grammar.Label e.name e.nameText := by
    simp [weight, Doc.entry, Doc.label_quote]
  have values : ∀ e ∈ [weight, Doc.entry ("nodes", .list [plainNode])],
      Grammar.Value e.value e.valueText := by
    simp [weight, Doc.entry, huge_value, Doc.value_spelling nodes]
  exact .members labels values

theorem lone_nodes_read :
    (weightedGraph.SpeltAs weightedText ∧
        Graph.Edited .extend (loneNode plainNode) weightedGraph ∧
        Graph.codec.parse weightedText = .ok ⟨[⟨"a", .entry, ""⟩], []⟩) ∧
      (loneNode turnedNode).SpeltAs (loneNode turnedNode).render ∧
        Graph.Edited .rearrange (loneNode plainNode) (loneNode turnedNode) ∧
        Graph.codec.parse (loneNode turnedNode).render = .ok ⟨[⟨"a", .entry, ""⟩], []⟩ := by
  have spelt (node : Doc) (h : node.Writable) :
      (loneNode node).SpeltAs (loneNode node).render :=
    Doc.speltAs_render (.record (by simp [Doc.Writable.list, h]))
  have hplain := spelt plainNode (.record (by simp [Doc.Writable.string]))
  have hturned := spelt turnedNode (.record (by simp [Doc.Writable.string]))
  have hread : Graph.codec.parse (loneNode plainNode).render = .ok ⟨[⟨"a", .entry, ""⟩], []⟩ := by
    rw [Codec.parse_of_speltAs hplain]
    rfl
  have weighted : Graph.Edited .extend (loneNode plainNode) weightedGraph := by
    have strange : Edit.Strange (Graph.row .extend) "weight" := by
      simp [Edit.Strange, Graph.row]
    exact .members (.cons (.same _) .nil) (.put strange ⟨_, huge_value⟩ (.keep _ .nil))
  have turned : Graph.Edited .rearrange (loneNode plainNode) (loneNode turnedNode) := by
    have node : Node.Edited .rearrange plainNode turnedNode :=
      .members (.cons (.same _) (.cons (.same _) .nil)) (.swap _ _ _)
    have nodes : Edit.Keeps .rearrange (Graph.row .rearrange)
        (some "nodes", .list [plainNode]) (some "nodes", .list [turnedNode]) :=
      .field (.head _) (by simp) (by simp) (.inl rfl) (.items (.cons node .nil))
    exact .members (.cons nodes .nil) (.refl _)
  obtain ⟨graphs, -⟩ := forward_compatible
  refine ⟨⟨weightedGraph_speltAs, weighted, ?_⟩, hturned, turned, ?_⟩
  · rw [graphs.extended _ _ _ _ hplain weightedGraph_speltAs weighted, hread]
  · exact graphs.rearranged _ _ _ _ hplain hturned turned _ hread

end Flowgraph
