import Flowgraph.Proofs.Json.Doc
import Mathlib.Logic.Relation
/-!
# How documents grow

A text that goes on after a blank has the tokens that it had before, and then some more. Each of them
adds to what was open at the end of the document, or closes it, and leaves alone what was whole.
-/
namespace Flowgraph.Json

namespace Lexer

theorem isFinal_of_mayEnd {p : NumeralPart} (h : p.mayEnd none = true) : IsFinal p := by
  cases p with
  | zero => exact .inl rfl
  | whole => exact .inr (.inl rfl)
  | fraction => exact .inr (.inr (.inl rfl))
  | exponent => exact .inr (.inr (.inr rfl))
  | _ => cases h

theorem scan_blank (l : Lexer) (rest : List Char) :
    ∃ more, (scan l (' ' :: rest)).1 = l.finish.1 ++ more := by
  cases l with
  | numeral p acc =>
    by_cases h : p.mayEnd none = true
    · rw [scan_numeral_end (isFinal_of_mayEnd h) acc (ends_cons (by decide) rest), finish, if_pos h]
      exact ⟨_, rfl⟩
    · rw [finish, if_neg h]
      exact ⟨_, rfl⟩
  | _ => exact ⟨_, rfl⟩

theorem scan_goesOn (l : Lexer) (cs rest : List Char) :
    ∃ more, (scan l (cs ++ ' ' :: rest)).1 = (scan l cs).1 ++ more := by
  induction cs generalizing l with
  | nil => exact scan_blank l rest
  | cons c cs ih =>
    obtain ⟨more, h⟩ := ih (l.step c).2
    refine ⟨more, ?_⟩
    rw [List.cons_append, scan_cons, scan_cons, emit, emit, h, List.append_assoc]

end Lexer

/-- What one more token makes of a document. -/
inductive Doc.Grows : Doc → Doc → Prop
  | begins (d : Doc) : Grows .missing d
  | items (ds more : List Doc) (ending : Ending) :
      Grows (.array ds .cut) (.array (ds ++ more) ending)
  | lastItem (ds : List Doc) {d d' : Doc} (h : Grows d d') :
      Grows (.array (ds ++ [d]) .cut) (.array (ds ++ [d']) .cut)
  | members (ms more : List (Name × Doc)) (ending : Ending) :
      Grows (.object ms .cut) (.object (ms ++ more) ending)
  | lastMember (ms : List (Name × Doc)) (n : Name) {d d' : Doc} (h : Grows d d') :
      Grows (.object (ms ++ [(n, d)]) .cut) (.object (ms ++ [(n, d')]) .cut)
  | misnamed (found : Token) : Grows (.object [] .cut) (.misnamed found)

namespace Builder
open Doc

/-- The tokens that can stand somewhere, and what each of them does there. -/
inductive Stepped : Builder → Token → Builder → Prop where
  | value (path : List Part) {t : Token} {b : Builder} (h : begin? path t = some b) :
      Stepped (value path) t b
  | firstItem (path : List Part) {t : Token} {b : Builder} (ht : t ≠ .closeBracket)
      (h : begin? (.item [] :: path) t = some b) : Stepped (firstItem path) t b
  | emptyArray (path : List Part) :
      Stepped (firstItem path) .closeBracket (fill (.array [] .closed) path)
  | nextItem (path : List Part) (items : List Doc) :
      Stepped (afterItem path items) .comma (value (.item items :: path))
  | array (path : List Part) (items : List Doc) :
      Stepped (afterItem path items) .closeBracket (fill (.array items.reverse .closed) path)
  | emptyObject (path : List Part) :
      Stepped (firstName path) .closeBrace (fill (.object [] .closed) path)
  | firstName (path : List Part) (n : Name) :
      Stepped (firstName path) (.text n) (colon path [] n)
  | name (path : List Part) (members : List (Name × Doc)) (n : Name) :
      Stepped (name path members) (.text n) (colon path members n)
  | colon (path : List Part) (members : List (Name × Doc)) (n : Name) :
      Stepped (colon path members n) .colon (value (.member members n :: path))
  | nextMember (path : List Part) (members : List (Name × Doc)) :
      Stepped (afterMember path members) .comma (name path members)
  | object (path : List Part) (members : List (Name × Doc)) :
      Stepped (afterMember path members) .closeBrace (fill (.object members.reverse .closed) path)

theorem step_cases {b b' : Builder} {t : Token} (h : b.step t = some b') : Stepped b t b' := by
  unfold step at h
  split at h
  · exact .value _ h
  · cases h
    exact .emptyArray _
  · next ht => exact .firstItem _ ht h
  · cases h
    exact .nextItem _ _
  · cases h
    exact .array _ _
  · cases h
    exact .emptyObject _
  · cases h
    exact .firstName _ _
  · cases h
    exact .name _ _ _
  · cases h
    exact .colon _ _ _
  · cases h
    exact .nextMember _ _
  · cases h
    exact .object _ _
  · cases h

theorem run_of_refused {b : Builder} {ts : List Token} (h : b.after ts = none)
    (more : List Token) : run b (ts ++ more) = ((run b ts).1, false) := by
  induction ts generalizing b with
  | nil => cases h
  | cons t ts ih =>
    rw [after_cons] at h
    rw [List.cons_append, run, run]
    cases hstep : b.step t with
    | none => rfl
    | some next =>
      rw [hstep] at h
      exact ih h

theorem stop_fill (d : Doc) (path : List Part) : (fill d path).stop = cutOff d path := by
  rcases path with - | ⟨⟨before⟩ | ⟨before, n⟩, path⟩ <;> rfl

theorem cutOff_grows {d d' : Doc} (h : d.Grows d') (path : List Part) :
    (cutOff d path).Grows (cutOff d' path) := by
  induction path generalizing d d' with
  | nil => exact h
  | cons part path ih =>
    cases part with
    | item before =>
      apply ih
      rw [List.reverse_cons, List.reverse_cons]
      exact .lastItem _ h
    | member before n =>
      apply ih
      rw [List.reverse_cons, List.reverse_cons]
      exact .lastMember _ n h

theorem stop_of_begin? {path : List Part} {t : Token} {b : Builder} (h : begin? path t = some b) :
    ∃ d, b.stop = cutOff d path := by
  unfold begin? at h
  split at h <;> cases h <;> first
    | exact ⟨_, stop_fill _ path⟩
    | exact ⟨_, rfl⟩

theorem cut_items_grows (path : List Part) (before more : List Doc) (ending : Ending) :
    (cutOff (.array before.reverse .cut) path).Grows
      (cutOff (.array (before.reverse ++ more) ending) path) :=
  cutOff_grows (.items _ more ending) path

theorem cut_members_grows (path : List Part) (before more : List (Name × Doc)) (ending : Ending) :
    (cutOff (.object before.reverse .cut) path).Grows
      (cutOff (.object (before.reverse ++ more) ending) path) :=
  cutOff_grows (.members _ more ending) path

/-- A colon, and the comma after a member, leave the document as it is. -/
theorem step_grows {b b' : Builder} {t : Token} (h : b.step t = some b') :
    Relation.ReflGen Grows b.stop b'.stop := by
  cases step_cases h with
  | value path h =>
    obtain ⟨d, hd⟩ := stop_of_begin? h
    exact .single (hd ▸ cutOff_grows (.begins d) path)
  | firstItem path ht h =>
    obtain ⟨d, hd⟩ := stop_of_begin? h
    rw [hd]
    exact .single (cut_items_grows path [] [d] .cut)
  | emptyArray path =>
    rw [stop_fill]
    exact .single (cut_items_grows path [] [] .closed)
  | nextItem path items =>
    rw [stop, stop, cutOff, List.reverse_cons]
    exact .single (cut_items_grows path items [.missing] .cut)
  | array path items =>
    have grows := cut_items_grows path items [] .closed
    rw [List.append_nil] at grows
    rw [stop_fill]
    exact .single grows
  | emptyObject path =>
    rw [stop_fill]
    exact .single (cut_members_grows path [] [] .closed)
  | firstName path n =>
    exact .single (cut_members_grows path [] [(n, .missing)] .cut)
  | name path members n =>
    rw [stop, stop, List.reverse_cons]
    exact .single (cut_members_grows path members [(n, .missing)] .cut)
  | colon path members n => exact .refl
  | nextMember path members => exact .refl
  | object path members =>
    have grows := cut_members_grows path members [] .closed
    rw [List.append_nil] at grows
    rw [stop_fill]
    exact .single grows

theorem refuse_grows (b : Builder) (t : Token) :
    Relation.ReflGen Grows b.stop (b.refuse t) := by
  cases b with
  | firstName path => exact .single (cutOff_grows (.misnamed t) path)
  | _ => exact .refl

theorem run_grows (b : Builder) (ts : List Token) :
    Relation.ReflTransGen Grows b.stop (run b ts).1 := by
  induction ts generalizing b with
  | nil => exact .refl
  | cons t ts ih =>
    rw [run]
    cases hstep : b.step t with
    | none => exact (refuse_grows b t).to_reflTransGen
    | some next => exact (step_grows hstep).to_reflTransGen.trans (ih next)

theorem run_append_grows (b : Builder) (ts more : List Token) :
    Relation.ReflTransGen Grows (run b ts).1 (run b (ts ++ more)).1 := by
  cases h : b.after ts with
  | none => rw [run_of_refused h more]
  | some next =>
    have hts := run_of_after h []
    rw [List.append_nil] at hts
    rw [hts, run_of_after h more]
    exact run_grows next more

end Builder

/-- The document of a text is where the document of the text that goes on began. -/
theorem Doc.parse_grows (text more : String) :
    Relation.ReflTransGen Grows (parse text).1 (parse (text ++ " " ++ more)).1 := by
  obtain ⟨ts, hts⟩ := Lexer.scan_goesOn .between text.toList more.toList
  have hscan : (Token.scan (text ++ " " ++ more)).1 = (Token.scan text).1 ++ ts := by
    rw [Token.scan, Token.scan, ← hts, String.toList_append, String.toList_append,
      List.append_assoc]
    rfl
  have grows := Builder.run_append_grows (.value []) (Token.scan text).1 ts
  rw [← hscan] at grows
  exact grows

end Flowgraph.Json
