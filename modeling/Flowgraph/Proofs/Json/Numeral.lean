import Flowgraph.Json.Fault
import Mathlib.Data.List.TakeWhile
import Mathlib.Tactic.IntervalCases
/-!
# Integers as numerals

An integer is spelt as a sign, if it is negative, and digits without a needless zero in front. A
spelling of that form stands for the integer, as long as it fits in 64 bits.
-/
namespace Flowgraph.Json

theorem toList_toString (n : Int) :
    (toString n).toList = (if n < 0 then ['-'] else []) ++ Nat.toDigits 10 n.natAbs := by
  rw [Int.toString_eq_repr, Int.repr_eq_if]
  by_cases h : 0 ≤ n
  · rw [if_pos h, if_neg (by omega), Nat.repr_eq_ofList_toDigits, String.toList_ofList,
      List.nil_append, show n.toNat = n.natAbs by omega]
  · rw [if_neg h, if_pos (by omega), Nat.repr_eq_ofList_toDigits, String.toList_append,
      String.toList_ofList, String.toList_ofList, show (-n).toNat = n.natAbs by omega]

theorem isDigit_toDigits {m : Nat} {c : Char} (h : c ∈ Nat.toDigits 10 m) : c.isDigit = true :=
  Nat.isDigit_of_mem_toDigits (by decide) (by decide) h

theorem exists_digitChar {c : Char} (h : c.isDigit = true) : ∃ m < 10, Nat.digitChar m = c := by
  have hc : 48 ≤ c.toNat ∧ c.toNat ≤ 57 := by
    simpa [Char.isDigit, UInt32.le_iff_toNat_le] using h
  refine ⟨c.toNat - 48, by omega, Char.toNat_inj.mp ?_⟩
  rw [Nat.toNat_digitChar_of_lt_ten (by omega)]
  omega

theorem head_toDigits {m : Nat} (h : 0 < m) : ∃ c cs, Nat.toDigits 10 m = c :: cs ∧ c ≠ '0' := by
  induction m using Nat.strongRecOn with
  | ind m ih =>
    by_cases hm : m < 10
    · refine ⟨_, [], Nat.toDigits_of_lt_base hm, ?_⟩
      interval_cases m <;> decide
    · obtain ⟨c, cs, hc, h0⟩ := ih (m / 10) (by omega) (by omega)
      exact ⟨c, cs ++ [(m % 10).digitChar],
        by rw [Nat.toDigits_of_base_le (by decide) (by omega), hc, List.cons_append], h0⟩

namespace Numeral

theorem ofLexeme_digits {ds : List Char} (h : ∀ c ∈ ds, c.isDigit = true) :
    ofLexeme ds = ⟨false, ds, [], none⟩ := by
  have hsign : ds.head? ≠ some '-' := by
    intro hd
    exact absurd (h _ (List.mem_of_head? hd)) (by decide)
  have hwhole : ds.takeWhile Char.isDigit = ds := List.takeWhile_eq_self_iff.mpr h
  have hrest : ds.dropWhile Char.isDigit = [] := List.dropWhile_eq_nil_iff.mpr h
  simp [ofLexeme, hsign, hwhole, hrest]

theorem ofLexeme_sign_digits {ds : List Char} (h : ∀ c ∈ ds, c.isDigit = true) :
    ofLexeme ('-' :: ds) = ⟨true, ds, [], none⟩ := by
  have hwhole : ds.takeWhile Char.isDigit = ds := List.takeWhile_eq_self_iff.mpr h
  have hrest : ds.dropWhile Char.isDigit = [] := List.dropWhile_eq_nil_iff.mpr h
  simp [ofLexeme, hwhole, hrest]

theorem ofLexeme_toString (n : Int) :
    ofLexeme (toString n).toList = ⟨decide (n < 0), Nat.toDigits 10 n.natAbs, [], none⟩ := by
  rw [toList_toString]
  by_cases h : n < 0
  · rw [if_pos h, List.singleton_append, ofLexeme_sign_digits fun _ => isDigit_toDigits]
    simp [h]
  · rw [if_neg h, List.nil_append, ofLexeme_digits fun _ => isDigit_toDigits]
    simp [h]

end Numeral

theorem seenNumber_toString {n : Int} (low : -9223372036854775808 ≤ n)
    (high : n < 18446744073709551616) : seenNumber (toString n) = some (.integer n) := by
  have hvalue : Numeral.digitsValue (Nat.toDigits 10 n.natAbs) = n.natAbs :=
    Nat.ofDigitChars_ten_toDigits
  rw [seenNumber, Numeral.ofLexeme_toString, Numeral.value?]
  simp only [hvalue, Numeral.significandBound, List.isEmpty_nil, Option.isNone_none, Bool.true_and]
  by_cases h : n < 0
  · have habs : -(n.natAbs : Int) = n := by omega
    have hbound : 0 < n.natAbs ∧ n.natAbs ≤ 18446744073709551616 / 2 := by omega
    rw [if_neg (by simp [h]), if_pos (by simp only [h, hbound]; rfl), habs]
    rfl
  · have habs : (n.natAbs : Int) = n := by omega
    have hbound : n.natAbs < 18446744073709551616 := by omega
    rw [if_pos (by simp [h, hbound]), habs]
    rfl

end Flowgraph.Json
