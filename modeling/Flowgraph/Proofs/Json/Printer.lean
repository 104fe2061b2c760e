import Flowgraph.Json.Printer
import Flowgraph.Proofs.Json.Doc
/-!
# Printing JSON

The documents that codecs write are printed as the grammar has it, so that they are read back from
what was printed.
-/
namespace Flowgraph.Json

/-! Tokens -/

namespace Piece

/-- The piece stands for one character, whatever comes after it. -/
def Spells (p : Piece) (c : Char) : Prop := ∀ ps, content? (p :: ps) = (content? ps).map (c :: ·)

theorem spells_plain (c : Char) : (plain c).Spells c := fun _ => by rw [content?]

theorem spells_unit {u : Nat} (h : u < 0xD800) : (unit u).Spells (Char.ofNat u) := by
  have hhigh : isHigh u = false := by simp [isHigh]; omega
  have hlow : isLow u = false := by simp [isLow]; omega
  intro ps
  rcases ps with - | ⟨c | v, ps⟩ <;> simp [content?, hhigh, hlow]

end Piece

namespace Grammar

theorem hexDigit?_digitChar : ∀ n < 16, Lexer.hexDigit? (Nat.digitChar n) = some n := by decide

theorem letter_escapeChar (c : Char) : ∃ p : Piece, p.Spells c ∧ Letter p (escapeChar c) := by
  by_cases short : c ∈ ['"', '\\', '\x08', '\x0c', '\n', '\r', '\t']
  · refine ⟨.plain c, Piece.spells_plain c, ?_⟩
    simp only [List.mem_cons, List.not_mem_nil, or_false] at short
    rcases short with rfl | rfl | rfl | rfl | rfl | rfl | rfl <;> exact .escape rfl
  · simp only [List.mem_cons, List.not_mem_nil, or_false, not_or] at short
    obtain ⟨h1, h2, h3, h4, h5, h6, h7⟩ := short
    by_cases h : c.toNat < 0x20
    · refine ⟨.unit (Char.toNat c), ?_, ?_⟩
      · have := Piece.spells_unit (u := c.toNat) (by omega)
        rwa [Char.ofNat_toNat] at this
      · have h0 : Lexer.hexDigit? '0' = some 0 := rfl
        have hunit := Letter.unit h0 h0 (hexDigit?_digitChar (c.toNat / 16) (by omega))
          (hexDigit?_digitChar (c.toNat % 16) (by omega))
        rw [show 16 * (16 * (16 * 0 + 0) + c.toNat / 16) + c.toNat % 16 = c.toNat by omega] at hunit
        have hescape : escapeChar c = ['\\', 'u', '0', '0'] ++ hexPair c.toNat := by
          simp only [escapeChar, h1, h2, h3, h4, h5, h6, h7, h, if_false, if_true]
        rwa [hescape]
    · refine ⟨.plain c, Piece.spells_plain c, ?_⟩
      simpa only [escapeChar, h1, h2, h3, h4, h5, h6, h7, h, if_false] using
        Letter.plain h1 h2 (Nat.not_lt.mp h)

theorem text_quote (s : String) : Text (some s) (quote s) := by
  have letters (content : List Char) :
      ∃ ps, Piece.content? ps = some content ∧ Letters ps (content.flatMap escapeChar) := by
    induction content with
    | nil => exact ⟨[], rfl, .nil⟩
    | cons c content ih =>
      obtain ⟨p, spells, hp⟩ := letter_escapeChar c
      obtain ⟨ps, hps, h⟩ := ih
      exact ⟨p :: ps, by rw [spells, hps, Option.map_some], .cons hp h⟩
  obtain ⟨ps, hps, h⟩ := letters s.toList
  have := Text.mk h
  rwa [hps, Option.map_some, String.ofList_toList] at this

theorem number_toString (n : Int) : Number (toString n).toList := by
  have hwhole : Whole (Nat.toDigits 10 n.natAbs) := by
    rcases Nat.eq_zero_or_pos n.natAbs with h | h
    · rw [h, Nat.toDigits_zero]
      exact .zero
    · obtain ⟨c, cs, hcs, h0⟩ := head_toDigits h
      have digits : ∀ d ∈ c :: cs, d.isDigit = true := fun d hd => isDigit_toDigits (hcs ▸ hd)
      rw [hcs]
      exact .digits (digits c (by simp)) h0 fun d hd => digits d (by simp [hd])
  have signed : (if n < 0 then ['-'] else []) = [] ∨ (if n < 0 then ['-'] else []) = ['-'] := by
    split <;> simp
  have := Number.mk signed hwhole .none .none
  rwa [List.append_nil, List.append_nil, ← toList_toString] at this

end Grammar

/-! Documents -/

/-- The documents that codecs write: their numbers are integers, their strings are texts, and their
containers are closed. -/
inductive Doc.Writable : Doc → Prop
  | null : Writable .null
  | bool (b : Bool) : Writable (.bool b)
  | int (n : Int) : Writable (.int n)
  | string (s : String) : Writable (.string s)
  | list {ds : List Doc} (items : ∀ d ∈ ds, Writable d) : Writable (.list ds)
  | record {ms : List (String × Doc)} (members : ∀ m ∈ ms, Writable m.2) : Writable (.record ms)

/-- The members of a record, as an object has them. -/
def named (ms : List (String × Doc)) : List (Name × Doc) := ms.map fun (n, d) => (some n, d)

@[simp] theorem named_nil : named [] = [] := rfl

@[simp] theorem named_cons (m : String × Doc) (ms : List (String × Doc)) :
    named (m :: ms) = (some m.1, m.2) :: named ms := rfl

namespace Doc

def spelling (d : Doc) : List Char := d.tokens.flatMap Token.spelling

theorem spelling_items (ds : List Doc) :
    (itemTokens ds).flatMap Token.spelling =
      (ds.map fun d => (d, d.spelling)).flatMap (fun p => ',' :: p.2) ++ [']'] := by
  induction ds with
  | nil => rfl
  | cons d ds ih =>
    rw [itemTokens, List.flatMap_cons, List.flatMap_append, ih]
    simp [spelling, Token.spelling]

def entry (m : String × Doc) : Grammar.Entry := ⟨some m.1, quote m.1, m.2, m.2.spelling⟩

theorem spelling_members (ms : List (String × Doc)) :
    (memberTokens (named ms)).flatMap Token.spelling =
      (ms.map entry).flatMap (fun e => ',' :: e.text) ++ ['\x7d'] := by
  induction ms with
  | nil => rfl
  | cons m ms ih =>
    rw [named_cons, memberTokens]
    simp only [List.flatMap_cons, List.flatMap_append, ih]
    simp [spelling, entry, Grammar.Entry.text, Token.spelling]

theorem label_quote (s : String) : Grammar.Label (some s) (quote s) := by
  have := Grammar.Label.mk Grammar.blank_nil (Grammar.text_quote s) Grammar.blank_nil
  rwa [List.nil_append, List.append_nil] at this

theorem value_spelling {d : Doc} (h : d.Writable) : Grammar.Value d d.spelling := by
  induction h with
  | null => exact .null
  | bool b => cases b with
    | true => exact .yes
    | false => exact .no
  | int n =>
    rw [spelling, Doc.int, tokens, List.flatMap_singleton]
    exact .number (Grammar.number_toString n)
  | string s =>
    rw [spelling, Doc.string, tokens, List.flatMap_singleton]
    exact .text (Grammar.text_quote s)
  | @list ds _ ih =>
    cases ds with
    | nil => exact .noItems Grammar.blank_nil
    | cons d ds =>
      have values : ∀ p ∈ (d :: ds).map fun d => (d, d.spelling), Grammar.Value p.1 p.2 :=
        List.forall_mem_map.mpr ih
      have hvalue := Grammar.Value.items values
      rw [← spelling_items] at hvalue
      simpa [spelling, tokens, Doc.list, Token.spelling, Function.comp_def] using hvalue
  | @record ms _ ih =>
    cases ms with
    | nil => exact .noMembers Grammar.blank_nil
    | cons m ms =>
      have labels : ∀ e ∈ (m :: ms).map entry, Grammar.Label e.name e.nameText :=
        List.forall_mem_map.mpr fun m _ => label_quote m.1
      have values : ∀ e ∈ (m :: ms).map entry, Grammar.Value e.value e.valueText :=
        List.forall_mem_map.mpr ih
      have hvalue := Grammar.Value.members labels values
      have hdocs : ((m :: ms).map entry).map (fun e => (e.name, e.value)) = named (m :: ms) := by
        simp [named, entry, Function.comp_def]
      rw [← List.map_cons, hdocs, ← spelling_members] at hvalue
      simpa [spelling, tokens, Doc.record, named, entry, Grammar.Entry.text, Token.spelling]
        using hvalue

theorem speltAs_render {d : Doc} (h : d.Writable) : d.SpeltAs d.render := by
  rw [SpeltAs, render, String.toList_ofList]
  exact value_spelling h

theorem parse_render {d : Doc} (h : d.Writable) : parse d.render = (d, true) :=
  parse_of_speltAs (speltAs_render h)

theorem render_injective {d d' : Doc} (hd : d.Writable) (hd' : d'.Writable)
    (h : d.render = d'.render) : d = d' := by
  have := parse_render hd
  rw [h, parse_render hd'] at this
  exact (Prod.mk.inj this).1.symm

end Doc
end Flowgraph.Json
