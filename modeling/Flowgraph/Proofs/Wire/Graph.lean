import Flowgraph.Proofs.Json.Record
import Flowgraph.Wire.Graph
/-!
# Graphs there and back

The text of a graph is read as the graph in its normal form, which differs from it in empty keys
only. Whatever text a graph was read from, it is in normal form, so that printing and reading it
again changes nothing.
-/
namespace Flowgraph

open Json

/-! The normal form -/

/-- An empty key picks no action, and asks the usual question. -/
def Kind.normalise : Kind → Kind
  | action (some k) => if k.word = "" then action none else action (some k)
  | condition p => if p.word = "" then condition (.known .canMove) else condition p
  | k => k

def Node.normalise (n : Node) : Node := { n with kind := n.kind.normalise }

def Graph.normalise (g : Graph) : Graph := { g with nodes := g.nodes.map Node.normalise }

/-- A key outside the vocabulary is a word, and none of the vocabulary's. -/
def Key.Settled {α : Type} [Vocabulary α] : Key α → Prop
  | known _ => True
  | unknown w _ => w ≠ "" ∧ (Vocabulary.ofName? w : Option α) = none

/-- What reading sees to: keys are settled, and loops have rounds that fit in 32 bits. -/
def Kind.Settled : Kind → Prop
  | action a => ∀ k ∈ a, k.Settled
  | condition p => p.Settled
  | loop r => 1 ≤ r.count ∧ r.count ≤ 4294967295
  | _ => True

def Graph.Settled (g : Graph) : Prop := ∀ n ∈ g.nodes, n.kind.Settled

namespace Key
variable {α : Type} [Vocabulary α]

theorem settled_ofWord {w : String} (h : w ≠ "") : (ofWord w : Key α).Settled := by
  unfold ofWord
  split
  · trivial
  next hw => exact ⟨h, hw⟩

theorem Settled.word_ne {k : Key α} (h : k.Settled) (names : ∀ a : α, Vocabulary.name a ≠ "") :
    k.word ≠ "" := by
  cases k with
  | known a => exact names a
  | unknown w _ => exact h.1

end Key

namespace Kind

theorem given_empty : given (some "") = none := rfl

theorem given_of_ne {w : String} (h : w ≠ "") : given (some w) = some w := by
  simp [given, Option.filter, h]

theorem settled_of_mem_given {α : Type} [Vocabulary α] {w : Option String} {k : Key α}
    (h : k ∈ (given w).map Key.ofWord) : k.Settled := by
  obtain ⟨v, hv, rfl⟩ := Option.map_eq_some_iff.mp h
  have hne : v ≠ "" := by
    rintro rfl
    simp [given, Option.filter_eq_some_iff] at hv
  exact Key.settled_ofWord hne

theorem settled_ofPayload (p : Payload) (tag : Tag) : (ofPayload p tag).Settled := by
  cases tag with
  | entry | exit => trivial
  | action =>
    intro k hk
    exact settled_of_mem_given hk
  | condition =>
    rw [ofPayload, Settled]
    cases h : (given p.predicateId).map (Key.ofWord (α := Question)) with
    | none => trivial
    | some k => exact settled_of_mem_given h
  | loop => exact ⟨Rounds.pos _, Rounds.bounded _⟩

theorem ofPayload_payload? (k : Kind) : ofPayload (k.payload?.getD {}) k.tag = k.normalise := by
  cases k with
  | entry | exit => rfl
  | action a =>
    cases a with
    | none => rfl
    | some k =>
      by_cases h : k.word = ""
      · simp [payload?, tag, ofPayload, normalise, h, given_empty]
      · simp [payload?, tag, ofPayload, normalise, h, given_of_ne]
  | condition p =>
    by_cases h : p.word = ""
    · simp [payload?, tag, ofPayload, normalise, h, given_empty, Question.default]
    · simp [payload?, tag, ofPayload, normalise, h, given_of_ne]
  | loop r => simp [payload?, tag, ofPayload, normalise]

theorem Settled.normalise {k : Kind} (h : k.Settled) : k.normalise = k := by
  cases k with
  | entry | loop | exit => rfl
  | action a =>
    cases a with
    | none => rfl
    | some k =>
      apply if_neg
      apply (h k rfl).word_ne
      intro a
      cases a <;> decide
  | condition p =>
    apply if_neg
    apply Key.Settled.word_ne h
    intro a
    cases a <;> decide

end Kind

theorem Graph.Settled.normalise {g : Graph} (h : g.Settled) : g.normalise = g := by
  have hnodes : g.nodes.map Node.normalise = g.nodes := by
    conv_rhs => rw [← List.map_id g.nodes]
    apply List.map_congr_left
    intro n hn
    rw [Node.normalise, (h n hn).normalise]
    rfl
  rw [Graph.normalise, hnodes]

/-! What the codecs give back -/

theorem Payload.count_givesBack {n : Int}
    (h : -9223372036854775808 ≤ n ∧ n < 9223372036854775808) : count.GivesBack n n := by
  apply Codec.integer_givesBack
  · exact h.1
  · simp only [id]
    omega
  · exact if_pos h

theorem Payload.codec_givesBack {p : Payload}
    (h : ∀ n ∈ p.iterations, -9223372036854775808 ≤ n ∧ n < 9223372036854775808) :
    codec.GivesBack p p := by
  have hcount : ∀ n ∈ p.iterations, count.GivesBack n n := fun n hn => count_givesBack (h n hn)
  have hfields : fields.GivesBack (p.actionKind, p.predicateId, p.iterations, ())
      (p.actionKind, p.predicateId, p.iterations, ()) :=
    ⟨Field.optional_text_givesBack _, Field.optional_text_givesBack _,
      Field.optional_givesBack hcount nofun, trivial⟩
  exact .map (Fields.codec_givesBack (by decide) hfields) rfl

theorem Kind.payload?_givesBack (k : Kind) :
    ∀ p ∈ k.payload?, Payload.codec.GivesBack p p := by
  intro p hp
  apply Payload.codec_givesBack
  cases k with
  | entry | exit => cases hp
  | action | condition =>
    cases hp
    exact nofun
  | loop r =>
    cases hp
    rintro n ⟨rfl⟩
    have := r.bounded
    omega

theorem Node.record_givesBack (n : Node) :
    (fields.codec "RawNode").GivesBack (n.id, n.tag, n.label, n.kind.payload?, ())
      (n.id, n.tag, n.label, n.kind.payload?, ()) := by
  have hfields : fields.GivesBack (n.id, n.tag, n.label, n.kind.payload?, ())
      (n.id, n.tag, n.label, n.kind.payload?, ()) :=
    ⟨Field.required_givesBack (Codec.text_givesBack _),
      Field.required_givesBack (Codec.word_givesBack _),
      Field.defaulted_givesBack (Codec.text_givesBack _),
      Field.optional_givesBack n.kind.payload?_givesBack nofun, trivial⟩
  exact Fields.codec_givesBack (by decide) hfields

theorem Node.codec_givesBack (n : Node) : codec.GivesBack n n.normalise :=
  .map n.record_givesBack (congrArg (Node.mk n.id · n.label) n.kind.ofPayload_payload?)

theorem Edge.branchOf_name (b : Option Bool) : branchOf (b.map Vocabulary.name) none = b := by
  cases b <;> simp [branchOf]

theorem Edge.codec_givesBack (e : Edge) : codec.GivesBack e e := by
  have hfields : fields.GivesBack
      (e.id, e.source, e.target, e.branch.map Vocabulary.name, none, ())
      (e.id, e.source, e.target, e.branch.map Vocabulary.name, none, ()) :=
    ⟨Field.defaulted_givesBack (Codec.text_givesBack _),
      Field.required_givesBack (Codec.text_givesBack _),
      Field.required_givesBack (Codec.text_givesBack _),
      Field.optional_text_givesBack _, Field.readOnly_givesBack rfl, trivial⟩
  exact .map (Fields.codec_givesBack (by decide) hfields)
    (congrArg (Edge.mk e.id e.source e.target) (branchOf_name e.branch))

namespace Graph

theorem codec_givesBack (g : Graph) : codec.GivesBack g g.normalise := by
  have hnodes : Node.codec.list.GivesBack g.nodes (g.nodes.map Node.normalise) := by
    apply Codec.list_givesBack
    intro n _
    exact n.codec_givesBack
  have hedges : Edge.codec.list.GivesBack g.edges g.edges := by
    apply Codec.list_givesBack_self
    intro e _
    exact e.codec_givesBack
  have hfields : fields.GivesBack (g.nodes, g.edges, ())
      (g.nodes.map Node.normalise, g.edges, ()) :=
    ⟨Field.required_givesBack hnodes, Field.defaulted_givesBack hedges, trivial⟩
  exact .map (Fields.codec_givesBack (by decide) hfields) rfl

theorem settled_of_reads {g : Graph} (h : codec.Reads g) : g.Settled := by
  obtain ⟨⟨nodes, edges, rest⟩, hfields, rfl⟩ := Codec.reads_of_map h
  obtain ⟨hnodes | hnodes, -⟩ := Fields.reads_of_codec hfields
  · intro n hn
    obtain ⟨⟨id, tag, label, payload, rest⟩, -, rfl⟩ :=
      Codec.reads_of_map (Codec.reads_of_list hnodes n hn)
    exact Kind.settled_ofPayload _ _
  · cases hnodes

/-- What is printed of a graph is read as its normal form. What is read from any text is in normal
form, so that it is given back as it is, and a text that was printed again is printed the same. -/
theorem roundTrip_normalises :
    (∀ g : Graph, codec.parse (codec.print g) = .ok g.normalise) ∧
      (∀ (text : String) (g : Graph), codec.parse text = .ok g →
        g.Settled ∧ codec.parse (codec.print g) = .ok g) ∧
      ∀ text again : String, codec.reprint text = .ok again →
        codec.reprint again = .ok again := by
  have there (g : Graph) : codec.parse (codec.print g) = .ok g.normalise :=
    g.codec_givesBack.parse_print
  have back (text : String) (g : Graph) (h : codec.parse text = .ok g) :
      g.Settled ∧ codec.parse (codec.print g) = .ok g := by
    have settled : g.Settled := settled_of_reads (Codec.reads_of_parse h)
    exact ⟨settled, by rw [there, settled.normalise]⟩
  refine ⟨there, back, ?_⟩
  intro text again h
  obtain ⟨g, hg, rfl⟩ := exists_of_map_eq_ok h
  rw [Codec.reprint, (back text g hg).2]
  rfl

def olderText : String :=
  "[[[\"a\",\"start\"]," ++
    "\x7b\"data\":\x7b\"loopCount\":0\x7d,\"type\":\"loop\",\"id\":\"b\\u00e9\"\x7d]]"

def olderGraph : Graph where
  nodes := [⟨"a", .entry, ""⟩, ⟨"bé", .loop (.clamp 1), ""⟩]

theorem older_roundTrip :
    codec.parse olderText = .ok olderGraph ∧ olderGraph.Settled ∧
      codec.parse (codec.print olderGraph) = .ok olderGraph ∧
      codec.reprint olderText = .ok (codec.print olderGraph) ∧
      codec.reprint (codec.print olderGraph) = .ok (codec.print olderGraph) := by
  have hparse : codec.parse olderText = .ok olderGraph := rfl
  have hprint : codec.reprint olderText = .ok (codec.print olderGraph) := by
    rw [Codec.reprint, hparse]
    rfl
  obtain ⟨-, back, again⟩ := roundTrip_normalises
  obtain ⟨hsettled, hback⟩ := back olderText olderGraph hparse
  exact ⟨hparse, hsettled, hback, hprint, again olderText _ hprint⟩

end Graph
end Flowgraph
