import Flowgraph.Proofs.Json.Grammar
import Flowgraph.Proofs.Json.Numeral
/-!
# Scanning texts

Whatever spells a token by the grammar is scanned as that token, whatever stands after it. Only a
number has to be followed by something that it cannot go on with.
-/
namespace Flowgraph.Json

namespace Lexer

/-- What a scan gives that gave some tokens before. -/
def emit (ts : List Token) (r : List Token × Bool) : List Token × Bool := (ts ++ r.1, r.2)

@[simp] theorem emit_nil (r : List Token × Bool) : emit [] r = r := rfl

@[simp] theorem emit_emit (ts us : List Token) (r : List Token × Bool) :
    emit ts (emit us r) = emit (ts ++ us) r := by
  simp [emit]

theorem scan_cons (l : Lexer) (c : Char) (cs : List Char) :
    scan l (c :: cs) = emit (l.step c).1 (scan (l.step c).2 cs) := rfl

/-- The characters take the lexer from one standing to another, and complete no token. -/
def Passes (l : Lexer) (cs : List Char) (l' : Lexer) : Prop :=
  ∀ rest, scan l (cs ++ rest) = scan l' rest

namespace Passes
variable {l l' l'' : Lexer} {cs ds : List Char}

theorem nil (l : Lexer) : l.Passes [] l := fun _ => rfl

theorem append (h : l.Passes cs l') (h' : l'.Passes ds l'') : l.Passes (cs ++ ds) l'' := by
  intro rest
  rw [List.append_assoc, h, h']

theorem cons {c : Char} (h : l.step c = ([], l')) (h' : l'.Passes cs l'') :
    l.Passes (c :: cs) l'' := by
  intro rest
  rw [List.cons_append, scan_cons, h, emit_nil, h']

theorem single {c : Char} (h : l.step c = ([], l')) : l.Passes [c] l' := .cons h (.nil l')

end Passes

/-! Blanks -/

theorem passes_blank {cs : List Char} (h : Grammar.Blank cs) : between.Passes cs between := by
  induction cs with
  | nil => exact .nil _
  | cons c cs ih =>
    have hc : between.step c = ([], between) := by
      rcases h c (by simp) with rfl | rfl | rfl | rfl <;> rfl
    exact .cons hc (ih fun d hd => h d (by simp [hd]))

/-! Strings -/

theorem passes_letter {p : Piece} {cs : List Char} (h : Grammar.Letter p cs) (ps : List Piece) :
    (text ps).Passes cs (text (p :: ps)) := by
  cases h with
  | plain quote backslash control =>
    apply Passes.single
    simp [step, quote, backslash, Nat.not_lt.mpr control]
  | @escape c e he =>
    have hu : e ≠ 'u' := by
      rintro rfl
      cases he
    have hback : (text ps).step '\\' = ([], escape ps) := rfl
    have hletter : (escape ps).step e = ([], text (.plain c :: ps)) := by simp [step, hu, he]
    exact .cons hback (.single hletter)
  | @unit a b c d p q r s ha hb hc hd =>
    have hback : (text ps).step '\\' = ([], escape ps) := rfl
    have hu : (escape ps).step 'u' = ([], unit ps 4 0) := rfl
    have h1 : (unit ps 4 0).step a = ([], unit ps 3 p) := by simp [step, ha]
    have h2 : (unit ps 3 p).step b = ([], unit ps 2 (16 * p + q)) := by simp [step, hb]
    have h3 : (unit ps 2 (16 * p + q)).step c = ([], unit ps 1 (16 * (16 * p + q) + r)) := by
      simp [step, hc]
    apply Passes.cons hback (.cons hu (.cons h1 (.cons h2 (.cons h3 (.single _)))))
    simp [step, hd]

theorem passes_letters {qs : List Piece} {cs : List Char} (h : Grammar.Letters qs cs)
    (ps : List Piece) : (text ps).Passes cs (text (qs.reverse ++ ps)) := by
  induction h generalizing ps with
  | nil => exact .nil _
  | cons first _ ih =>
    rw [List.reverse_cons, List.append_assoc, List.singleton_append]
    exact (passes_letter first ps).append (ih _)

theorem scan_text {s : Option String} {cs : List Char} (h : Grammar.Text s cs) (rest : List Char) :
    scan between (cs ++ rest) = emit [.text s] (scan between rest) := by
  obtain ⟨letters⟩ := h
  rw [List.cons_append, List.append_assoc, List.singleton_append, scan_cons]
  rw [show between.step '"' = ([], text []) from rfl, emit_nil, passes_letters letters, scan_cons]
  simp [step]

/-! Numbers -/

/-- What may stand after a number. -/
def closers : List Char := [',', ']', '\x7d', ' ', '\t', '\n', '\r']

/-- A text that no number goes on with. -/
def Ends (cs : List Char) : Prop := ∀ c ∈ cs.head?, c ∈ closers

theorem ends_nil : Ends [] := by simp [Ends]

theorem ends_cons {c : Char} (h : c ∈ closers) (cs : List Char) : Ends (c :: cs) := by
  simpa [Ends] using h

theorem ends_blank {cs rest : List Char} (h : Grammar.Blank cs) (ends : Ends rest) :
    Ends (cs ++ rest) := by
  cases cs with
  | nil => exact ends
  | cons c cs =>
    apply ends_cons
    rcases h c (by simp) with rfl | rfl | rfl | rfl <;> decide

theorem step_numeral {p q : NumeralPart} {c : Char} (h : p.next c = some q) (acc : List Char) :
    (numeral p acc).step c = ([], numeral q (c :: acc)) := by
  simp [step, h]

theorem passes_digits {p : NumeralPart} (hp : ∀ c : Char, c.isDigit = true → p.next c = some p)
    {cs : List Char} (digits : Grammar.Digits cs) (acc : List Char) :
    (numeral p acc).Passes cs (numeral p (cs.reverse ++ acc)) := by
  induction cs generalizing acc with
  | nil => exact .nil _
  | cons c cs ih =>
    rw [List.reverse_cons, List.append_assoc, List.singleton_append]
    have hc : p.next c = some p := hp c (digits c (by simp))
    exact .cons (step_numeral hc acc) (ih (fun d hd => digits d (by simp [hd])) _)

theorem passes_run {p q : NumeralPart} {c : Char} {cs : List Char} (hc : p.next c = some q)
    (hq : ∀ c : Char, c.isDigit = true → q.next c = some q) (digits : Grammar.Digits cs)
    (acc : List Char) : (numeral p acc).Passes (c :: cs) (numeral q ((c :: cs).reverse ++ acc)) := by
  rw [List.reverse_cons, List.append_assoc, List.singleton_append]
  exact .cons (step_numeral hc acc) (passes_digits hq digits _)

theorem next_whole {c : Char} (h : c.isDigit = true) : NumeralPart.whole.next c = some .whole := by
  simp [NumeralPart.next, h]

theorem next_fraction {c : Char} (h : c.isDigit = true) :
    NumeralPart.fraction.next c = some .fraction := by
  simp [NumeralPart.next, h]

theorem next_exponent {c : Char} (h : c.isDigit = true) :
    NumeralPart.exponent.next c = some .exponent := by
  simp [NumeralPart.next, h]

theorem passes_whole {l : Lexer} {acc cs : List Char} (h : Grammar.Whole cs)
    (hzero : l.step '0' = ([], numeral .zero ('0' :: acc)))
    (hdigit : ∀ c : Char, c.isDigit = true → c ≠ '0' → l.step c = ([], numeral .whole (c :: acc))) :
    ∃ p, (p = .zero ∨ p = .whole) ∧ l.Passes cs (numeral p (cs.reverse ++ acc)) := by
  cases h with
  | zero => exact ⟨.zero, .inl rfl, .single hzero⟩
  | @digits c cs digit nonzero more =>
    refine ⟨.whole, .inr rfl, ?_⟩
    rw [List.reverse_cons, List.append_assoc, List.singleton_append]
    exact .cons (hdigit c digit nonzero) (passes_digits (fun _ => next_whole) more _)

theorem passes_fraction {p : NumeralPart} (hp : p = .zero ∨ p = .whole) {cs : List Char}
    (h : Grammar.Fraction cs) (acc : List Char) :
    ∃ q, (q = .zero ∨ q = .whole ∨ q = .fraction) ∧
      (numeral p acc).Passes cs (numeral q (cs.reverse ++ acc)) := by
  cases h with
  | none =>
    refine ⟨p, ?_, .nil _⟩
    rcases hp with rfl | rfl <;> simp
  | @digits c cs digit more =>
    have hpoint : p.next '.' = some .point := by rcases hp with rfl | rfl <;> rfl
    have hc : NumeralPart.point.next c = some .fraction := by simp [NumeralPart.next, digit]
    refine ⟨.fraction, .inr (.inr rfl), ?_⟩
    rw [List.reverse_cons, List.append_assoc, List.singleton_append]
    exact .cons (step_numeral hpoint acc) (passes_run hc (fun _ => next_fraction) more _)

theorem next_mark {p : NumeralPart} (hp : p = .zero ∨ p = .whole ∨ p = .fraction) {c : Char}
    (h : c = 'e' ∨ c = 'E') : p.next c = some .mark := by
  rcases hp with rfl | rfl | rfl <;> rcases h with rfl | rfl <;> rfl

/-- The parts after which a numeral may be at its end, whatever comes then. -/
def IsFinal (p : NumeralPart) : Prop := p = .zero ∨ p = .whole ∨ p = .fraction ∨ p = .exponent

theorem passes_exponent {p : NumeralPart} (hp : p = .zero ∨ p = .whole ∨ p = .fraction)
    {cs : List Char} (h : Grammar.Exponent cs) (acc : List Char) :
    ∃ q, IsFinal q ∧ (numeral p acc).Passes cs (numeral q (cs.reverse ++ acc)) := by
  cases h with
  | none =>
    refine ⟨p, ?_, .nil _⟩
    rcases hp with rfl | rfl | rfl <;> simp [IsFinal]
  | @digits mark c sign cs marked signed digit more =>
    refine ⟨.exponent, by simp [IsFinal], ?_⟩
    rw [List.reverse_cons, List.append_assoc, List.singleton_append]
    apply Passes.cons (step_numeral (next_mark hp marked) acc)
    have hc (q : NumeralPart) (hq : q = .mark ∨ q = .markSign) : q.next c = some .exponent := by
      rcases hq with rfl | rfl <;> simp [NumeralPart.next, digit]
    have digits (q : NumeralPart) (hq : q = .mark ∨ q = .markSign) (acc : List Char) :=
      passes_run (hc q hq) (fun _ => next_exponent) more acc
    rcases signed with rfl | rfl | rfl
    · exact digits _ (.inl rfl) _
    all_goals
      rw [List.reverse_append, List.append_assoc]
      exact .append (.single (step_numeral rfl _)) (digits _ (.inr rfl) _)

theorem next_of_ends {p : NumeralPart} (hp : IsFinal p) :
    ∀ c ∈ closers, p.next c = none ∧ p.mayEnd (some c) = true := by
  intro c hc
  simp only [closers, List.mem_cons, List.not_mem_nil, or_false] at hc
  rcases hp with rfl | rfl | rfl | rfl <;>
    rcases hc with rfl | rfl | rfl | rfl | rfl | rfl | rfl <;> exact ⟨rfl, rfl⟩

theorem scan_numeral_end {p : NumeralPart} (hp : IsFinal p) (acc : List Char) {rest : List Char}
    (h : Ends rest) :
    scan (numeral p acc) rest = emit [.number (String.ofList acc.reverse)] (scan between rest) := by
  cases rest with
  | nil =>
    rcases hp with rfl | rfl | rfl | rfl <;> simp [scan, finish, NumeralPart.mayEnd, emit]
  | cons c rest =>
    have hnext := next_of_ends hp c (h c rfl)
    rw [scan_cons, scan_cons]
    simp [step, hnext, emit]

theorem step_between_digit {c : Char} (digit : c.isDigit = true) (h : c ≠ '0') :
    between.step c = ([], numeral .whole [c]) := by
  obtain ⟨m, hm, rfl⟩ := exists_digitChar digit
  interval_cases m
  · exact absurd rfl h
  all_goals rfl

theorem scan_number {cs rest : List Char} (h : Grammar.Number cs) (ends : Ends rest) :
    scan between (cs ++ rest) = emit [.number (String.ofList cs)] (scan between rest) := by
  obtain @⟨sign, whole, fraction, exponent, signed, hwhole, hfraction, hexponent⟩ := h
  have hsigned : ∃ p, (p = .zero ∨ p = .whole) ∧
      between.Passes (sign ++ whole) (numeral p (whole.reverse ++ sign.reverse)) := by
    rcases signed with rfl | rfl
    · exact passes_whole hwhole rfl fun c => step_between_digit
    · have hdigit (c : Char) (hc : c.isDigit = true) (h0 : c ≠ '0') :
          (numeral .sign ['-']).step c = ([], numeral .whole [c, '-']) := by
        simp [step, NumeralPart.next, hc, h0]
      obtain ⟨p, hp, h⟩ := passes_whole hwhole (step_numeral rfl ['-']) hdigit
      exact ⟨p, hp, .cons rfl h⟩
  obtain ⟨p, hp, h⟩ := hsigned
  obtain ⟨q, hq, h'⟩ := passes_fraction hp hfraction (whole.reverse ++ sign.reverse)
  obtain ⟨r, hr, h''⟩ :=
    passes_exponent hq hexponent (fraction.reverse ++ (whole.reverse ++ sign.reverse))
  have passes := (h.append h').append h''
  rw [← List.append_assoc, ← List.append_assoc, passes, scan_numeral_end hr _ ends]
  simp

end Lexer

end Flowgraph.Json
