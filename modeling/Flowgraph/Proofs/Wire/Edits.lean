import Flowgraph.Proofs.Json.Edit
import Flowgraph.Proofs.Wire.Sides
import Flowgraph.Wire.Run
/-!
# Edits of graphs, levels and worlds

The names that the fields of each record go by, older ones included, and what the edits of a document
may reach. No codec notices them. A tag and the side of an edge have older spellings of their own.
-/
namespace Flowgraph

open Json

/-! Tags -/

/-- Two words for the same tag. -/
def Tag.Synonyms (w w' : String) : Prop :=
  ∃ words ∈ [["entry", "start"], ["exit", "end"]], w ∈ words ∧ w' ∈ words

/-- A tag is a word, or the name of a member that says nothing more. -/
inductive Tag.Edited (e : Edit) : Doc → Doc → Prop
  | same (d : Doc) : Edited e d d
  | word {w w' : String} (he : e = .respell) (h : Synonyms w w') :
      Edited e (.string w) (.string w')
  | variant {w w' : String} {d : Doc} {rest : List Member} {ending : Json.Ending} (he : e = .respell)
      (h : Synonyms w w') :
      Edited e (.object ((some w, d) :: rest) ending) (.object ((some w', d) :: rest) ending)

theorem Tag.Synonyms.ofWord {w w' : String} (h : Synonyms w w') :
    (Codec.ofWord w : Except Fault Tag) = Codec.ofWord w' := by
  obtain ⟨words, hwords, hw, hw'⟩ := h
  simp only [List.mem_cons, List.not_mem_nil, or_false] at hwords
  rcases hwords with rfl | rfl <;>
    simp only [List.mem_cons, List.not_mem_nil, or_false] at hw hw' <;>
    rcases hw with rfl | rfl <;> rcases hw' with rfl | rfl <;> rfl

theorem Tag.codec_tolerates (e : Edit) : (Codec.word : Codec Tag).Tolerates e (Tag.Edited e) := by
  intro d d' hd
  cases hd with
  | same => exact .refl _
  | word _ h =>
    simp only [Codec.word, Doc.string, h.ofWord]
    exact .refl _
  | variant _ h =>
    simp only [Codec.word, h.ofWord]
    exact .refl _

/-! Graphs -/

namespace Payload

def row : List Shape :=
  [⟨["actionKind", "action"], Eq⟩, ⟨["predicateId", "condition"], Eq⟩,
    ⟨["iterations", "loopCount"], Eq⟩]

def Edited (e : Edit) : Doc → Doc → Prop := e.Record row

theorem codec_tolerates (e : Edit) : codec.Tolerates e (Edited e) := by
  have fits : fields.Fits e row :=
    ⟨Field.plain_fits rfl, Field.plain_fits rfl, Field.plain_fits rfl, trivial⟩
  exact (Fields.codec_tolerates fits (by decide) _).map _ _

end Payload

namespace Node

def row (e : Edit) : List Shape :=
  [⟨["id"], Eq⟩, ⟨["kind", "type"], Tag.Edited e⟩, ⟨["label"], Eq⟩,
    ⟨["payload", "data"], Payload.Edited e⟩]

def Edited (e : Edit) : Doc → Doc → Prop := e.Record (row e)

theorem codec_tolerates (e : Edit) : codec.Tolerates e (Edited e) := by
  have fits : fields.Fits e (row e) :=
    ⟨Field.plain_fits rfl, Field.required_fits (Tag.codec_tolerates e), Field.plain_fits rfl,
      Field.optional_fits (Payload.codec_tolerates e), trivial⟩
  have apart : Fields.Apart (row e) := by cases e <;> decide
  exact (Fields.codec_tolerates fits apart _).map _ _

end Node

namespace Edge

def row : List Shape :=
  [⟨["id"], Eq⟩, ⟨["source"], Eq⟩, ⟨["target"], Eq⟩, ⟨["branch", "sourceHandle"], Eq⟩,
    ⟨["label"], Eq⟩]

def Edited (e : Edit) (d d' : Doc) : Prop := e.Record row d d' ∨ e = .respell ∧ Relabelled d d'

theorem codec_tolerates (e : Edit) : codec.Tolerates e (Edited e) := by
  have fits : fields.Fits e row :=
    ⟨Field.plain_fits rfl, Field.plain_fits rfl, Field.plain_fits rfl, Field.plain_fits rfl,
      Field.plain_fits rfl, trivial⟩
  have record : codec.Tolerates e (e.Record row) :=
    (Fields.codec_tolerates fits (by decide) _).map _ _
  rintro d d' (hd | ⟨-, hd⟩)
  · exact record d d' hd
  · exact .inl hd.read_eq

end Edge

namespace Graph

def row (e : Edit) : List Shape :=
  [⟨["nodes"], Edit.Items (Node.Edited e)⟩, ⟨["edges"], Edit.Items (Edge.Edited e)⟩]

def Edited (e : Edit) : Doc → Doc → Prop := e.Record (row e)

theorem codec_tolerates (e : Edit) : codec.Tolerates e (Edited e) := by
  have fits : fields.Fits e (row e) :=
    ⟨Field.required_fits (Node.codec_tolerates e).list,
      Field.defaulted_fits (Edge.codec_tolerates e).list _, trivial⟩
  have apart : Fields.Apart (row e) := by cases e <;> decide
  exact (Fields.codec_tolerates fits apart _).map _ _

end Graph

/-! Levels -/

namespace Position

def row : List Shape := [⟨["x"], Eq⟩, ⟨["y"], Eq⟩]

def Edited (e : Edit) : Doc → Doc → Prop := e.Record row

theorem codec_tolerates (e : Edit) : codec.Tolerates e (Edited e) := by
  have fits : fields.Fits e row := ⟨Field.plain_fits rfl, Field.plain_fits rfl, trivial⟩
  exact (Fields.codec_tolerates fits (by decide) _).map _ _

end Position

namespace Cell

def row : List Shape := [⟨["kind", "type"], Eq⟩, ⟨["x"], Eq⟩, ⟨["y"], Eq⟩]

def Edited (e : Edit) : Doc → Doc → Prop := e.Record row

theorem codec_tolerates (e : Edit) : codec.Tolerates e (Edited e) := by
  have fits : fields.Fits e row :=
    ⟨Field.plain_fits rfl, Field.plain_fits rfl, Field.plain_fits rfl, trivial⟩
  exact (Fields.codec_tolerates fits (by decide) _).map _ _

end Cell

namespace Grid

def Edited (e : Edit) : Doc → Doc → Prop := Edit.Items (Edit.Items (Cell.Edited e))

theorem codec_tolerates (e : Edit) : codec.Tolerates e (Edited e) :=
  (Cell.codec_tolerates e).list.list.map _ _

end Grid

namespace Level

def row (e : Edit) : List Shape :=
  [⟨["id"], Eq⟩, ⟨["name"], Eq⟩, ⟨["description"], Eq⟩, ⟨["grid"], Grid.Edited e⟩,
    ⟨["startPosition"], Position.Edited e⟩, ⟨["startDirection"], Eq⟩,
    ⟨["goalPosition"], Position.Edited e⟩, ⟨["maxSteps"], Eq⟩, ⟨["minSteps"], Eq⟩,
    ⟨["difficulty"], Eq⟩, ⟨["hints"], Eq⟩, ⟨["requiredActions"], Eq⟩]

def Edited (e : Edit) : Doc → Doc → Prop := e.Record (row e)

theorem codec_tolerates (e : Edit) : codec.Tolerates e (Edited e) := by
  have fits : fields.Fits e (row e) :=
    ⟨Field.plain_fits rfl, Field.plain_fits rfl, Field.plain_fits rfl,
      Field.required_fits (Grid.codec_tolerates e), Field.required_fits (Position.codec_tolerates e),
      Field.plain_fits rfl, Field.required_fits (Position.codec_tolerates e), Field.plain_fits rfl,
      Field.plain_fits rfl, Field.plain_fits rfl, Field.plain_fits rfl, Field.plain_fits rfl,
      trivial⟩
  have apart : Fields.Apart (row e) := by cases e <;> decide
  exact (Fields.codec_tolerates fits apart _).map _ _

end Level

/-! Worlds -/

namespace Character

def row (e : Edit) : List Shape := [⟨["position"], Position.Edited e⟩, ⟨["direction"], Eq⟩]

def Edited (e : Edit) : Doc → Doc → Prop := e.Record (row e)

theorem codec_tolerates (e : Edit) : codec.Tolerates e (Edited e) := by
  have fits : fields.Fits e (row e) :=
    ⟨Field.required_fits (Position.codec_tolerates e), Field.plain_fits rfl, trivial⟩
  have apart : Fields.Apart (row e) := by cases e <;> decide
  exact (Fields.codec_tolerates fits apart _).map _ _

end Character

namespace World

def row (e : Edit) : List Shape :=
  [⟨["character"], Character.Edited e⟩, ⟨["grid"], Grid.Edited e⟩, ⟨["stepCount"], Eq⟩,
    ⟨["isComplete"], Eq⟩, ⟨["isFailed"], Eq⟩, ⟨["failureReason"], Eq⟩, ⟨["lastAction"], Eq⟩]

def Edited (e : Edit) : Doc → Doc → Prop := e.Record (row e)

theorem codec_tolerates (e : Edit) : codec.Tolerates e (Edited e) := by
  have fits : fields.Fits e (row e) :=
    ⟨Field.required_fits (Character.codec_tolerates e), Field.required_fits (Grid.codec_tolerates e),
      Field.plain_fits rfl, Field.plain_fits rfl, Field.plain_fits rfl, Field.plain_fits rfl,
      Field.plain_fits rfl, trivial⟩
  have apart : Fields.Apart (row e) := by cases e <;> decide
  exact (Fields.codec_tolerates fits apart _).map _ _

end World
end Flowgraph
