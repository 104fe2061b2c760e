import Flowgraph.Proofs.Json.Token
/-!
# Reading texts

A JSON text is read to its end, and as the tree that it spells, wherever a value stands: the scan of
the text gives tokens, whatever closes the text off, and the tokens fill the place with the tree,
whatever containers are around it.
-/
namespace Flowgraph.Json

namespace Lexer
open Doc

/-- The text is scanned as the tokens, provided that what comes after it is as it has to be. -/
def Scans (cs : List Char) (ts : List Token) (after : List Char → Prop := fun _ => True) : Prop :=
  ∀ rest, after rest → scan between (cs ++ rest) = emit ts (scan between rest)

/-- The text is scanned as the tokens, and no number goes on with it. -/
structure Closes (cs : List Char) (ts : List Token) : Prop where
  scans : Scans cs ts
  ends : ∀ rest, Ends (cs ++ rest)

section
variable {cs ds : List Char} {ts us : List Token} {p q : List Char → Prop}

namespace Scans

theorem append (hcs : Scans cs ts p) (hds : Scans ds us q) (h : ∀ rest, q rest → p (ds ++ rest)) :
    Scans (cs ++ ds) (ts ++ us) q := by
  intro rest hq
  rw [List.append_assoc, hcs _ (h rest hq), hds rest hq, emit_emit]

theorem before (hcs : Scans cs ts) (hds : Scans ds us q) : Scans (cs ++ ds) (ts ++ us) q := by
  apply hcs.append hds
  intro rest _
  trivial

theorem inside (h : Scans cs ts) : Scans cs ts p := by
  intro rest _
  exact h rest trivial

theorem blank (h : Grammar.Blank cs) : Scans cs [] := by
  intro rest _
  exact passes_blank h rest

theorem label {n : Name} (h : Grammar.Label n cs) : Scans cs [.text n] := by
  obtain ⟨hbefore, text, hafter⟩ := h
  have htext : Scans _ [Token.text n] := fun rest _ => scan_text text rest
  exact (blank hbefore).before (htext.before (blank hafter))

theorem closed (hcs : Scans cs ts Ends) (hds : Closes ds us) : Scans (cs ++ ds) (ts ++ us) := by
  apply hcs.append hds.scans
  intro rest _
  exact hds.ends rest

end Scans

theorem closes_bracket : Closes [']'] [.closeBracket] := ⟨fun _ _ => rfl, ends_cons (by decide)⟩

theorem closes_brace : Closes ['\x7d'] [.closeBrace] := ⟨fun _ _ => rfl, ends_cons (by decide)⟩

theorem closes_comma (h : Scans cs ts) : Closes (',' :: cs) (.comma :: ts) where
  scans := by
    have hcomma : Scans [','] [.comma] := fun _ _ => rfl
    exact hcomma.before h
  ends rest := ends_cons (by decide) (cs ++ rest)

end

theorem scans_member {e : Grammar.Entry} {cs : List Char} {ts us : List Token}
    (label : Grammar.Label e.name e.nameText) (value : Scans e.valueText us Ends)
    (h : Closes cs ts) : Scans (e.text ++ cs) (.text e.name :: .colon :: (us ++ ts)) := by
  have hcolon : Scans [':'] [.colon] := fun _ _ => rfl
  have := (Scans.label label).before (hcolon.before (value.closed h))
  rwa [List.singleton_append, ← List.cons_append, ← List.append_assoc] at this

end Lexer

namespace Builder

/-- Where the builder stands after some tokens, if it takes them all. -/
def after (b : Builder) (ts : List Token) : Option Builder := ts.foldlM step b

theorem after_cons (b : Builder) (t : Token) (ts : List Token) :
    b.after (t :: ts) = (b.step t).bind (after · ts) := List.foldlM_cons

theorem after_append (b : Builder) (ts us : List Token) :
    b.after (ts ++ us) = (b.after ts).bind (after · us) := List.foldlM_append

theorem run_of_after {b b' : Builder} {ts : List Token} (h : b.after ts = some b')
    (more : List Token) : run b (ts ++ more) = run b' more := by
  induction ts generalizing b with
  | nil =>
    cases h
    rfl
  | cons t ts ih =>
    rw [after_cons] at h
    obtain ⟨next, hstep, hafter⟩ := Option.bind_eq_some_iff.mp h
    rw [List.cons_append, run, hstep]
    exact ih hafter

/-- The tokens fill the place where a value stands with the document, whatever is around it. -/
def Fills (ts : List Token) (d : Doc) : Prop := ∀ path, (value path).after ts = some (fill d path)

/-- The first item of an array begins like any value, but for the bracket that closes the array. -/
theorem step_firstItem {t : Token} (ht : t ≠ .closeBracket) (path : List Part) :
    (firstItem path).step t = begin? (.item [] :: path) t := by
  cases t with
  | closeBracket => exact absurd rfl ht
  | _ => rfl

theorem Fills.firstItem {ts : List Token} {d : Doc} (h : Fills ts d) (path : List Part) :
    (firstItem path).after ts = some (afterItem path [d]) := by
  have item : (value (.item [] :: path)).after ts = some (afterItem path [d]) :=
    h (.item [] :: path)
  cases ts with
  | nil => cases item
  | cons t ts =>
    have ht : t ≠ .closeBracket := by
      rintro rfl
      cases item
    rw [after_cons, step_firstItem ht, ← item]
    rfl

end Builder

namespace Doc
open Lexer Builder

/-- The characters are read as the document, wherever a value stands. -/
def ReadFrom (d : Doc) (cs : List Char) : Prop := ∃ ts, Scans cs ts Ends ∧ Fills ts d

theorem closes_items {more : List (Doc × List Char)} (h : ∀ p ∈ more, p.1.ReadFrom p.2) :
    ∃ ts, Closes (more.flatMap (fun p => ',' :: p.2) ++ [']']) ts ∧
      ∀ path before, (afterItem path before).after ts =
        some (fill (.array (before.reverse ++ more.map (·.1)) .closed) path) := by
  induction more with
  | nil =>
    refine ⟨[.closeBracket], closes_bracket, ?_⟩
    intro path before
    rw [List.map_nil, List.append_nil]
    rfl
  | cons p more ih =>
    obtain ⟨⟨ts, scans, fills⟩, hmore⟩ := List.forall_mem_cons.mp h
    obtain ⟨us, closes, built⟩ := ih hmore
    refine ⟨.comma :: (ts ++ us), ?_, ?_⟩
    · rw [List.flatMap_cons, List.append_assoc, List.cons_append]
      exact closes_comma (scans.closed closes)
    · intro path before
      calc (afterItem path before).after (.comma :: (ts ++ us))
        _ = (value (.item before :: path)).after (ts ++ us) := rfl
        _ = (afterItem path (p.1 :: before)).after us := by
          rw [after_append, fills]
          rfl
        _ = some (fill (.array (before.reverse ++ (p :: more).map (·.1)) .closed) path) := by
          rw [built, List.reverse_cons, List.append_assoc, List.map_cons, List.singleton_append]

theorem closes_members {more : List Grammar.Entry}
    (labels : ∀ e ∈ more, Grammar.Label e.name e.nameText)
    (values : ∀ e ∈ more, e.value.ReadFrom e.valueText) :
    ∃ ts, Closes (more.flatMap (fun e => ',' :: e.text) ++ ['\x7d']) ts ∧
      ∀ path before, (afterMember path before).after ts =
        some (fill (.object (before.reverse ++ more.map fun e => (e.name, e.value)) .closed) path) := by
  induction more with
  | nil =>
    refine ⟨[.closeBrace], closes_brace, ?_⟩
    intro path before
    rw [List.map_nil, List.append_nil]
    rfl
  | cons e more ih =>
    obtain ⟨hlabel, hlabels⟩ := List.forall_mem_cons.mp labels
    obtain ⟨⟨ts, scans, fills⟩, hvalues⟩ := List.forall_mem_cons.mp values
    obtain ⟨us, closes, built⟩ := ih hlabels hvalues
    refine ⟨.comma :: .text e.name :: .colon :: (ts ++ us), ?_, ?_⟩
    · rw [List.flatMap_cons, List.append_assoc, List.cons_append]
      exact closes_comma (scans_member hlabel scans closes)
    · intro path before
      calc (afterMember path before).after (.comma :: .text e.name :: .colon :: (ts ++ us))
        _ = (value (.member before e.name :: path)).after (ts ++ us) := rfl
        _ = (afterMember path ((e.name, e.value) :: before)).after us := by
          rw [after_append, fills]
          rfl
        _ = _ := by
          rw [built, List.reverse_cons, List.append_assoc, List.map_cons, List.singleton_append]

namespace ReadFrom
variable {d : Doc} {cs : List Char}

theorem token {t : Token} (scans : Scans cs [t] Ends) (fills : Fills [t] d) : d.ReadFrom cs :=
  ⟨[t], scans, fills⟩

theorem noItems (blank : Grammar.Blank cs) : (array [] .closed).ReadFrom ('[' :: (cs ++ [']'])) := by
  have hopen : Scans ['['] [.openBracket] := fun _ _ => rfl
  have scans := hopen.before ((Scans.blank blank).before closes_bracket.scans)
  exact ⟨_, scans.inside, fun path => rfl⟩

theorem items {first : Doc × List Char} {more : List (Doc × List Char)}
    (h : ∀ p ∈ first :: more, p.1.ReadFrom p.2) :
    (array ((first :: more).map (·.1)) .closed).ReadFrom
      ('[' :: (first.2 ++ (more.flatMap (fun p => ',' :: p.2) ++ [']']))) := by
  obtain ⟨⟨ts, scans, fills⟩, hmore⟩ := List.forall_mem_cons.mp h
  obtain ⟨us, closes, built⟩ := closes_items hmore
  have hopen : Scans ['['] [.openBracket] := fun _ _ => rfl
  refine ⟨_, (hopen.before (scans.closed closes)).inside, ?_⟩
  intro path
  calc (value path).after ([.openBracket] ++ (ts ++ us))
    _ = (firstItem path).after (ts ++ us) := rfl
    _ = (afterItem path [first.1]).after us := by
      rw [after_append, fills.firstItem]
      rfl
    _ = some (fill (.array ((first :: more).map (·.1)) .closed) path) := built path [first.1]

theorem noMembers (blank : Grammar.Blank cs) :
    (object [] .closed).ReadFrom ('{' :: (cs ++ ['}'])) := by
  have hopen : Scans ['{'] [.openBrace] := fun _ _ => rfl
  have scans := hopen.before ((Scans.blank blank).before closes_brace.scans)
  exact ⟨_, scans.inside, fun path => rfl⟩

theorem members {first : Grammar.Entry} {more : List Grammar.Entry}
    (labels : ∀ e ∈ first :: more, Grammar.Label e.name e.nameText)
    (values : ∀ e ∈ first :: more, e.value.ReadFrom e.valueText) :
    (object ((first :: more).map fun e => (e.name, e.value)) .closed).ReadFrom
      ('{' :: (first.text ++ (more.flatMap (fun e => ',' :: e.text) ++ ['}']))) := by
  obtain ⟨hlabel, hlabels⟩ := List.forall_mem_cons.mp labels
  obtain ⟨⟨ts, scans, fills⟩, hvalues⟩ := List.forall_mem_cons.mp values
  obtain ⟨us, closes, built⟩ := closes_members hlabels hvalues
  have hopen : Scans ['{'] [.openBrace] := fun _ _ => rfl
  refine ⟨_, (hopen.before (scans_member hlabel scans closes)).inside, ?_⟩
  intro path
  calc (value path).after ([.openBrace] ++ .text first.name :: .colon :: (ts ++ us))
    _ = (value (.member [] first.name :: path)).after (ts ++ us) := rfl
    _ = (afterMember path [(first.name, first.value)]).after us := by
      rw [after_append, fills]
      rfl
    _ = _ := built path [(first.name, first.value)]

theorem padded {before ending : List Char} (hbefore : Grammar.Blank before) (h : d.ReadFrom cs)
    (hafter : Grammar.Blank ending) : d.ReadFrom (before ++ (cs ++ ending)) := by
  obtain ⟨ts, scans, fills⟩ := h
  refine ⟨ts, ?_, fills⟩
  have value := scans.append (Scans.blank hafter).inside fun rest ends => ends_blank hafter ends
  rw [List.append_nil] at value
  exact (Scans.blank hbefore).before value

end ReadFrom

/-- What the grammar admits is read as its tree, at the end of a text or inside a container. -/
theorem readFrom_of_value {d : Doc} {cs : List Char} (h : Grammar.Value d cs) : d.ReadFrom cs := by
  induction h with
  | null | yes | no => exact .token (fun rest _ => rfl) fun path => rfl
  | @number l h =>
    refine .token (t := .number l) (fun rest ends => ?_) fun path => rfl
    rw [scan_number h ends, String.ofList_toList]
  | text h => exact .token (fun rest _ => scan_text h rest) fun path => rfl
  | noItems blank => exact .noItems blank
  | items _ ih => exact .items ih
  | noMembers blank => exact .noMembers blank
  | members names _ ih => exact .members names ih
  | padded hbefore _ hafter ih => exact ih.padded hbefore hafter

theorem ReadFrom.parse {d : Doc} {text : String} (h : d.ReadFrom text.toList) :
    parse text = (d, true) := by
  obtain ⟨ts, scans, fills⟩ := h
  have hscan : Token.scan text = (ts, true) := by
    have := scans [] ends_nil
    rw [List.append_nil] at this
    rw [Token.scan, this, emit, scan, finish, List.append_nil]
  have hrun : build ts = (d, true) := by
    have := run_of_after (fills []) []
    rwa [List.append_nil] at this
  rw [Doc.parse, hscan]
  simp only [hrun, Bool.and_self]

theorem parse_of_speltAs {d : Doc} {text : String} (h : d.SpeltAs text) :
    parse text = (d, true) := (readFrom_of_value h).parse

theorem isWhole_of_value {d : Doc} {cs : List Char} (h : Grammar.Value d cs) :
    d.isWhole = true := by
  induction h with
  | padded _ _ _ ih => exact ih
  | _ => rfl

end Doc
end Flowgraph.Json
