import Flowgraph.Proofs.Json.Growth
/-!
# Texts within texts

A text that is read to its end as a whole document is read as the same document wherever a value
stands in a larger text, and ends where it ended alone. The builder does inside of some containers
what it does outside of them, with their parts at the end of its path.
-/
namespace Flowgraph.Json

namespace Builder
open Doc

/-- The builder inside of further containers. When it is done, it has filled the place in them. -/
def within (outer : List Part) : Builder → Builder
  | value path => value (path ++ outer)
  | firstItem path => firstItem (path ++ outer)
  | afterItem path items => afterItem (path ++ outer) items
  | firstName path => firstName (path ++ outer)
  | name path members => name (path ++ outer) members
  | colon path members n => colon (path ++ outer) members n
  | afterMember path members => afterMember (path ++ outer) members
  | done d => fill d outer

theorem within_fill (d : Doc) (path outer : List Part) :
    (fill d path).within outer = fill d (path ++ outer) := by
  rcases path with - | ⟨⟨before⟩ | ⟨before, n⟩, path⟩ <;> rfl

theorem begin?_within {path : List Part} {t : Token} {b : Builder} (h : begin? path t = some b)
    (outer : List Part) : begin? (path ++ outer) t = some (b.within outer) := by
  unfold begin? at h
  split at h <;> cases h <;> first
    | exact congrArg some (within_fill _ path outer).symm
    | rfl

theorem step_within {b b' : Builder} {t : Token} (h : b.step t = some b') (outer : List Part) :
    (b.within outer).step t = some (b'.within outer) := by
  cases step_cases h with
  | value path h => exact begin?_within h outer
  | firstItem path ht h =>
    rw [within, step_firstItem ht]
    exact begin?_within h outer
  | emptyArray path => exact congrArg some (within_fill _ path outer).symm
  | array path items => exact congrArg some (within_fill _ path outer).symm
  | emptyObject path => exact congrArg some (within_fill _ path outer).symm
  | object path members => exact congrArg some (within_fill _ path outer).symm
  | nextItem path items => rfl
  | firstName path n => rfl
  | name path members n => rfl
  | colon path members n => rfl
  | nextMember path members => rfl

theorem after_within {b b' : Builder} {ts : List Token} (h : b.after ts = some b')
    (outer : List Part) : (b.within outer).after ts = some (b'.within outer) := by
  induction ts generalizing b with
  | nil =>
    cases h
    rfl
  | cons t ts ih =>
    rw [after_cons] at h
    obtain ⟨next, hstep, hafter⟩ := Option.bind_eq_some_iff.mp h
    rw [after_cons, step_within hstep outer]
    exact ih hafter

theorem isWhole_cutOff {d : Doc} (h : d.isWhole = false) (path : List Part) :
    (cutOff d path).isWhole = false := by
  induction path generalizing d with
  | nil => exact h
  | cons part path ih => cases part <;> exact ih rfl

theorem eq_done_of_isWhole_stop {b : Builder} (h : b.stop.isWhole = true) : b = done b.stop := by
  cases b with
  | done d => rfl
  | _ =>
    rw [stop, isWhole_cutOff rfl] at h
    cases h

theorem fills_of_build {ts : List Token} {d : Doc} (h : build ts = (d, true))
    (whole : d.isWhole = true) : Fills ts d := by
  rw [build] at h
  cases hb : (value []).after ts with
  | none =>
    have hrun := run_of_refused hb []
    rw [List.append_nil, h] at hrun
    cases hrun
  | some b =>
    have hrun := run_of_after hb []
    rw [List.append_nil, h] at hrun
    obtain ⟨rfl, -⟩ := Prod.ext_iff.mp hrun
    intro path
    have := after_within hb path
    rwa [eq_done_of_isWhole_stop whole] at this

end Builder

namespace Lexer

theorem scan_append {l : Lexer} {cs : List Char} {ts : List Token} (h : scan l cs = (ts, true))
    {rest : List Char} (ends : Ends rest) : scan l (cs ++ rest) = emit ts (scan between rest) := by
  induction cs generalizing l ts with
  | nil =>
    cases l with
    | between =>
      cases h
      rfl
    | numeral p acc =>
      by_cases hp : p.mayEnd none = true
      · rw [scan, finish, if_pos hp] at h
        cases h
        exact scan_numeral_end (isFinal_of_mayEnd hp) acc ends
      · rw [scan, finish, if_neg hp] at h
        cases h
    | _ => cases h
  | cons c cs ih =>
    rw [scan_cons, emit] at h
    obtain ⟨rfl, hwhole⟩ := Prod.ext_iff.mp h
    rw [List.cons_append, scan_cons, ih (Prod.ext rfl hwhole), emit_emit]

end Lexer

namespace Doc

theorem readFrom_of_parse {d : Doc} {text : String} (h : parse text = (d, true))
    (whole : d.isWhole = true) : d.ReadFrom text.toList := by
  simp only [parse, Prod.mk.injEq, Bool.and_eq_true] at h
  obtain ⟨hd, hscan, htaken⟩ := h
  refine ⟨(Token.scan text).1, ?_, Builder.fills_of_build (Prod.ext hd htaken) whole⟩
  intro rest ends
  exact Lexer.scan_append (Prod.ext rfl hscan) ends

/-- To be read alone, to the end of the text, and to be read wherever a value stands are the same. -/
theorem readFrom_iff {d : Doc} {text : String} (whole : d.isWhole = true) :
    d.ReadFrom text.toList ↔ parse text = (d, true) :=
  ⟨ReadFrom.parse, fun h => readFrom_of_parse h whole⟩

end Doc
end Flowgraph.Json
