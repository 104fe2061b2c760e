import Flowgraph.Numeric.Dyadic
import Mathlib.Algebra.Order.Field.Power
import Mathlib.Data.Rat.Cast.Order
import Mathlib.Tactic.FieldSimp
import Mathlib.Tactic.Linarith
import Mathlib.Tactic.Positivity
import Mathlib.Tactic.Ring
/-!
# Rounding to 53 digits

A rounded number is a multiple of the unit in which the exact one has 53 digits before the point. It
is the nearest multiple, and of two equally near ones the even. All whole numbers of 53 digits are such
multiples, so they are not changed, and rounding passes none of them by.
-/
namespace Flowgraph
namespace Dyadic

/-- The number that a dyadic stands for. -/
def toRat (d : Dyadic) : ℚ := d.mantissa * 2 ^ d.exponent

/-- What a number may be rounded to: the nearest multiple of the power of two in which it has 53
digits before the point, and of two equally near ones the even multiple. Zero stays what it is. -/
inductive RoundsTo (q : ℚ) : ℚ → Prop where
  | zero (h : q = 0) : RoundsTo q 0
  | multiple (k : ℕ) (e : ℤ) (low : 2 ^ 52 * 2 ^ e ≤ q) (high : q < 2 ^ 53 * 2 ^ e)
      (near : |q - k * 2 ^ e| ≤ 2 ^ e / 2) (even : |q - k * 2 ^ e| = 2 ^ e / 2 → Even k) :
      RoundsTo q (k * 2 ^ e)

theorem part_cases {r den : ℕ} (hd : 0 < den) :
    (2 * r < den → (r : ℚ) / den < 1 / 2) ∧ (den < 2 * r → 1 / 2 < (r : ℚ) / den) ∧
      (2 * r = den → (r : ℚ) / den = 1 / 2) := by
  have hd' : (0 : ℚ) < den := by exact_mod_cast hd
  refine ⟨fun h => ?_, fun h => ?_, fun h => ?_⟩
  · rw [div_lt_div_iff₀ hd' (by norm_num)]
    exact_mod_cast (by omega : r * 2 < 1 * den)
  · rw [div_lt_div_iff₀ (by norm_num) hd']
    exact_mod_cast (by omega : 1 * den < r * 2)
  · rw [div_eq_div_iff hd'.ne' (by norm_num)]
    exact_mod_cast (by omega : r * 2 = 1 * den)

/-- The nearest integer to a quotient is at most a half away, and even if it is as much as that. -/
theorem roundHalfEven_near {den : ℕ} (hd : 0 < den) (num : ℕ) :
    |(num : ℚ) / den - roundHalfEven num den| ≤ 1 / 2 ∧
      (|(num : ℚ) / den - roundHalfEven num den| = 1 / 2 → Even (roundHalfEven num den)) := by
  have hd' : (0 : ℚ) < den := by exact_mod_cast hd
  have hsplit : (num : ℚ) / den = (num / den : ℕ) + ((num % den : ℕ) : ℚ) / den := by
    have := Nat.div_add_mod num den
    field_simp
    exact_mod_cast this.symm
  have hone : ((num % den : ℕ) : ℚ) / den < 1 := by
    rw [div_lt_one hd']
    exact_mod_cast Nat.mod_lt num hd
  have hzero : (0 : ℚ) ≤ ((num % den : ℕ) : ℚ) / den := by positivity
  obtain ⟨hlow, hhigh, hmid⟩ := part_cases (r := num % den) hd
  unfold roundHalfEven
  dsimp only
  rw [hsplit]
  generalize ((num % den : ℕ) : ℚ) / den = x at *
  generalize num / den = k at *
  by_cases hl : 2 * (num % den) < den
  · have hx := hlow hl
    rw [if_pos hl, add_sub_cancel_left, abs_of_nonneg hzero]
    exact ⟨hx.le, fun h => absurd h hx.ne⟩
  · rw [if_neg hl]
    by_cases hh : den < 2 * (num % den)
    · have hx := hhigh hh
      rw [if_pos hh, Nat.cast_add_one, add_sub_add_left_eq_sub, abs_of_neg (by linarith)]
      exact ⟨by linarith, fun h => absurd h (by linarith)⟩
    · have hx := hmid (by omega)
      rw [if_neg hh, Nat.cast_add, add_sub_add_left_eq_sub, hx]
      rcases Nat.mod_two_eq_zero_or_one k with hk | hk
      · rw [hk, Nat.even_iff]
        refine ⟨by norm_num, fun _ => by omega⟩
      · rw [hk, Nat.even_iff]
        refine ⟨by norm_num, fun _ => by omega⟩

theorem two_zpow_pos (e : ℤ) : (0 : ℚ) < 2 ^ e := zpow_pos (by norm_num) e

theorem two_zpow_add (a b : ℤ) : (2 : ℚ) ^ (a + b) = 2 ^ a * 2 ^ b := zpow_add₀ (by norm_num) a b

theorem toNat_pow_div (e : ℤ) : ((Nat.pow 2 e.toNat : ℕ) : ℚ) / (Nat.pow 2 (-e).toNat : ℕ) = 2 ^ e := by
  obtain ⟨k, rfl | rfl⟩ := e.eq_nat_or_neg
  · simp [Nat.pow_eq]
  · simp [Nat.pow_eq]

theorem inUnits_div (num den : ℕ) (e : ℤ) :
    ((inUnits num den e).1 : ℚ) / (inUnits num den e).2 = (num : ℚ) / den / 2 ^ e := by
  rw [inUnits, Nat.cast_mul, Nat.cast_mul, mul_div_mul_comm, ← toNat_pow_div e, div_div_eq_mul_div,
    mul_div_assoc]

theorem inUnits_den_pos {den : ℕ} (hd : 0 < den) (num : ℕ) (e : ℤ) : 0 < (inUnits num den e).2 :=
  Nat.mul_pos hd (Nat.pow_pos (by norm_num))

theorem ratio_div (d : Dyadic) : (d.ratio.1 : ℚ) / d.ratio.2 = d.toRat := by
  rw [ratio, Nat.cast_mul, mul_div_assoc, toNat_pow_div, toRat]

theorem ratio_den_pos (d : Dyadic) : 0 < d.ratio.2 := Nat.pow_pos (by norm_num)

theorem bitLength_bounds {n : ℕ} (hn : 0 < n) :
    (2 : ℚ) ^ (bitLength n : ℤ) ≤ 2 * n ∧ (n : ℚ) < 2 ^ (bitLength n : ℤ) := by
  rw [bitLength, if_neg hn.ne', zpow_natCast]
  constructor
  · have := Nat.log2_self_le hn.ne'
    rw [pow_succ]
    have : ((2 ^ n.log2 : ℕ) : ℚ) ≤ n := by exact_mod_cast this
    push_cast at this
    linarith
  · exact_mod_cast Nat.lt_log2_self

/-- The rounded number is a whole multiple of the unit, also where that is one unit too many for 53
digits. -/
theorem toRat_round (num den : ℕ) :
    (round num den).toRat =
      roundHalfEven (inUnits num den (unitExponent num den)).1
        (inUnits num den (unitExponent num den)).2 * 2 ^ unitExponent num den := by
  unfold round
  generalize unitExponent num den = e
  dsimp only
  by_cases hm : roundHalfEven (inUnits num den e).1 (inUnits num den e).2 = Nat.pow 2 precision
  · rw [if_pos hm, hm, toRat, two_zpow_add]
    norm_num [precision, Nat.pow_eq]
    ring
  · rw [if_neg hm, toRat]

/-- The first guess at the unit, from the lengths of the two parts of a quotient, gives 53 digits or
one too many. -/
theorem guess_bounds {num den : ℕ} (hn : 0 < num) (hd : 0 < den) {e : ℤ}
    (he : e = (bitLength num : ℤ) - bitLength den - precision) :
    (2 : ℚ) ^ 52 ≤ (num : ℚ) / den / 2 ^ e ∧ (num : ℚ) / den / 2 ^ e < 2 ^ 54 := by
  obtain ⟨hnl, hnu⟩ := bitLength_bounds hn
  obtain ⟨hdl, hdu⟩ := bitLength_bounds hd
  have hd' : (0 : ℚ) < den := by exact_mod_cast hd
  have hu := two_zpow_pos e
  have hnum : (2 : ℚ) ^ (bitLength num : ℤ) = 2 ^ 53 * 2 ^ e * 2 ^ (bitLength den : ℤ) := by
    have hsum : (bitLength num : ℤ) = ((53 : ℕ) : ℤ) + e + bitLength den := by
      rw [he, precision]
      ring
    rw [hsum, two_zpow_add, two_zpow_add, zpow_natCast]
  rw [div_div, le_div_iff₀ (by positivity), div_lt_iff₀ (by positivity)]
  rw [hnum] at hnl hnu
  have hlow := mul_lt_mul_of_pos_left hdu hu
  have hhigh := mul_le_mul_of_nonneg_left hdl hu.le
  constructor
  · linarith
  · linarith

theorem bitLength_le {num den : ℕ} (hd : 0 < den) (hhalf : den ≤ 2 * num) :
    bitLength den ≤ bitLength num + 1 := by
  obtain ⟨-, hnu⟩ := bitLength_bounds (by omega : 0 < num)
  obtain ⟨hdl, -⟩ := bitLength_bounds hd
  have hhalf' : (den : ℚ) ≤ 2 * num := by exact_mod_cast hhalf
  have hlt : (2 : ℚ) ^ (bitLength den : ℤ) < 2 ^ ((bitLength num : ℤ) + 2) := by
    have hfour : (2 : ℚ) ^ (2 : ℤ) = 4 := by norm_num
    rw [two_zpow_add, hfour]
    linarith
  have := (zpow_lt_zpow_iff_right₀ (by norm_num : (1 : ℚ) < 2)).mp hlt
  omega

theorem unitExponent_bounds {num den : ℕ} (hd : 0 < den) (hhalf : den ≤ 2 * num) :
    (2 : ℚ) ^ 52 ≤ (num : ℚ) / den / 2 ^ unitExponent num den ∧
      (num : ℚ) / den / 2 ^ unitExponent num den < 2 ^ 53 := by
  have hlength := bitLength_le hd hhalf
  unfold unitExponent
  dsimp only
  generalize he : (bitLength num : ℤ) - bitLength den - precision = e
  obtain ⟨hlow, hhigh⟩ := guess_bounds (by omega : 0 < num) hd he.symm
  -- the least exponent is for numbers far below a half
  have hleast : leastExponent ≤ e := by
    unfold leastExponent precision at *
    omega
  have hquot := inUnits_div num den e
  have hpos : (0 : ℚ) < (inUnits num den e).2 := by exact_mod_cast inUnits_den_pos hd num e
  by_cases hfits : (inUnits num den e).1 / (inUnits num den e).2 < Nat.pow 2 precision
  · rw [if_pos hfits, max_eq_right hleast]
    refine ⟨hlow, ?_⟩
    rw [Nat.div_lt_iff_lt_mul (inUnits_den_pos hd num e)] at hfits
    rw [← hquot, div_lt_iff₀ hpos]
    exact_mod_cast hfits
  · rw [if_neg hfits, max_eq_right (by omega), two_zpow_add, ← div_div, zpow_one]
    rw [not_lt, Nat.le_div_iff_mul_le (inUnits_den_pos hd num e)] at hfits
    have hlong : (2 : ℚ) ^ 53 ≤ (num : ℚ) / den / 2 ^ e := by
      rw [← hquot, le_div_iff₀ hpos]
      exact_mod_cast hfits
    constructor
    · linarith
    · linarith

theorem round_roundsTo {num den : ℕ} (hd : 0 < den) (hhalf : den ≤ 2 * num) :
    RoundsTo ((num : ℚ) / den) (round num den).toRat := by
  obtain ⟨hlow, hhigh⟩ := unitExponent_bounds hd hhalf
  rw [toRat_round]
  generalize unitExponent num den = e at *
  have hu := two_zpow_pos e
  obtain ⟨hnear, heven⟩ := roundHalfEven_near (inUnits_den_pos hd num e) (inUnits num den e).1
  rw [inUnits_div] at hnear heven
  generalize roundHalfEven (inUnits num den e).1 (inUnits num den e).2 = k at *
  have hscale : |(num : ℚ) / den - k * 2 ^ e| = |(num : ℚ) / den / 2 ^ e - k| * 2 ^ e := by
    rw [← abs_of_pos hu, ← abs_mul, abs_of_pos hu, sub_mul, div_mul_cancel₀ _ hu.ne']
  apply RoundsTo.multiple
  · rwa [le_div_iff₀ hu] at hlow
  · rwa [div_lt_iff₀ hu] at hhigh
  · rw [hscale]
    have := mul_le_mul_of_nonneg_right hnear hu.le
    linarith
  · intro htie
    rw [hscale] at htie
    apply heven
    apply mul_right_cancel₀ hu.ne'
    linarith

theorem round_zero (den : ℕ) : (round 0 den).toRat = 0 := by
  have hzero : ∀ d, roundHalfEven 0 d = 0 := by
    intro d
    simp [roundHalfEven]
  rw [toRat_round, inUnits, Nat.zero_mul, hzero, Nat.cast_zero, zero_mul]

theorem mul_roundsTo {a b : Dyadic} (hhalf : 1 / 2 ≤ a.toRat * b.toRat) :
    RoundsTo (a.toRat * b.toRat) (a.mul b).toRat := by
  have hden : 0 < a.ratio.2 * b.ratio.2 := Nat.mul_pos a.ratio_den_pos b.ratio_den_pos
  have hquot : ((a.ratio.1 * b.ratio.1 : ℕ) : ℚ) / (a.ratio.2 * b.ratio.2 : ℕ) =
      a.toRat * b.toRat := by
    rw [Nat.cast_mul, Nat.cast_mul, mul_div_mul_comm, ratio_div, ratio_div]
  have hle : a.ratio.2 * b.ratio.2 ≤ 2 * (a.ratio.1 * b.ratio.1) := by
    have hden' : (0 : ℚ) < (a.ratio.2 * b.ratio.2 : ℕ) := by exact_mod_cast hden
    rw [← hquot, div_le_div_iff₀ (by norm_num) hden', one_mul] at hhalf
    rw [Nat.mul_comm 2]
    exact_mod_cast hhalf
  rw [← hquot, mul]
  exact round_roundsTo hden hle

theorem exceeds_iff {d : Dyadic} {n : ℕ} : d.exceeds n = true ↔ (n : ℚ) < d.toRat := by
  have hden : (0 : ℚ) < d.ratio.2 := by exact_mod_cast d.ratio_den_pos
  rw [exceeds, decide_eq_true_eq, ← ratio_div, lt_div_iff₀ hden]
  exact_mod_cast Iff.rfl

theorem le_of_le_add_half {k m : ℕ} (h : (k : ℚ) ≤ m + 1 / 2) : k ≤ m := by
  have hlt : (k : ℚ) < (m + 1 : ℕ) := by
    rw [Nat.cast_add_one]
    linarith
  exact Nat.lt_succ_iff.mp (by exact_mod_cast hlt)

theorem exists_multiple_of_unit {q : ℚ} {e : ℤ} (low : 2 ^ 52 * 2 ^ e ≤ q) (hq : q < 2 ^ 53)
    (n : ℕ) : ∃ m : ℕ, (n : ℚ) = m * 2 ^ e := by
  have he : e < 1 := by
    rw [← zpow_lt_zpow_iff_right₀ (by norm_num : (1 : ℚ) < 2), zpow_one]
    linarith
  have hneg : ((-e).toNat : ℤ) = -e := by omega
  refine ⟨n * 2 ^ (-e).toNat, ?_⟩
  rw [Nat.cast_mul, Nat.cast_pow, Nat.cast_ofNat, ← zpow_natCast, hneg, mul_assoc, ← two_zpow_add,
    neg_add_cancel, zpow_zero, mul_one]

namespace RoundsTo
variable {q x : ℚ} {n : ℕ}

/-- A rounded number is off by one part in two to the fifty-third at most. -/
theorem near_enough (h : RoundsTo q x) : |q - x| ≤ q / 2 ^ 53 := by
  cases h with
  | zero hq => simp [hq]
  | multiple k e low high near even =>
    rw [le_div_iff₀ (by norm_num)]
    linarith

theorem exponent_le {e e' : ℤ} (low : 2 ^ 52 * 2 ^ e ≤ q) (high : q < 2 ^ 53 * 2 ^ e') : e ≤ e' := by
  have hlt : (2 : ℚ) ^ e < 2 ^ (e' + 1) := by
    rw [two_zpow_add, zpow_one]
    linarith
  have := (zpow_lt_zpow_iff_right₀ (by norm_num : (1 : ℚ) < 2)).mp hlt
  omega

/-- Of two multiples that are near enough, one is even and the other is not, and both are tied. -/
theorem not_lt_of_near {k k' : ℕ} {u : ℚ} (hu : 0 < u) (near : |q - k * u| ≤ u / 2)
    (even : |q - k * u| = u / 2 → Even k) (near' : |q - k' * u| ≤ u / 2)
    (even' : |q - k' * u| = u / 2 → Even k') : ¬k < k' := by
  intro hlt
  have hhigh := (abs_le.mp near).2
  have hlow := (abs_le.mp near').1
  have hclose : (k' : ℚ) * u ≤ (k + 1 : ℕ) * u := by
    rw [Nat.cast_add_one]
    linarith
  obtain rfl : k' = k + 1 := by
    have hle : k' ≤ k + 1 := by exact_mod_cast le_of_mul_le_mul_right hclose hu
    omega
  -- the two are neighbours, each at most half a unit away, so the number lies in the middle
  rw [Nat.cast_add_one] at hlow even'
  have htie : q - k * u = u / 2 := by linarith
  have htie' : q - (k + 1) * u = -(u / 2) := by linarith
  have hk := even (by rw [htie, abs_of_pos (by linarith)])
  have hk' := even' (by rw [htie', abs_neg, abs_of_pos (by linarith)])
  rw [Nat.even_iff] at hk hk'
  omega

/-- There is only one number that a number is rounded to. -/
theorem unique {y : ℚ} (hx : RoundsTo q x) (hy : RoundsTo q y) : x = y := by
  have hpos : ∀ {e : ℤ}, 2 ^ 52 * 2 ^ e ≤ q → q ≠ 0 := by
    intro e low
    have hu := two_zpow_pos e
    exact (lt_of_lt_of_le (by linarith) low).ne'
  cases hx with
  | zero hq =>
    cases hy with
    | zero => rfl
    | multiple k e low => exact absurd hq (hpos low)
  | multiple k e low high near even =>
    cases hy with
    | zero hq => exact absurd hq (hpos low)
    | multiple k' e' low' high' near' even' =>
      obtain rfl : e = e' := le_antisymm (exponent_le low high') (exponent_le low' high)
      have hu := two_zpow_pos e
      have hk : k = k' := le_antisymm (not_lt.mp (not_lt_of_near hu near' even' near even))
        (not_lt.mp (not_lt_of_near hu near even near' even'))
      rw [hk]

theorem natCast_le (h : RoundsTo q x) (hq : q < 2 ^ 53) (hn : (n : ℚ) ≤ q) : n ≤ x := by
  cases h with
  | zero hzero => rwa [hzero] at hn
  | multiple k e low high near even =>
    -- the whole number is a multiple of the unit as well, and no multiple lies within half a unit of
    -- the number on the far side of it
    obtain ⟨m, hm⟩ := exists_multiple_of_unit low hq n
    have hu := two_zpow_pos e
    have hclose : (m : ℚ) * 2 ^ e ≤ (k + 1 / 2) * 2 ^ e := by
      have := (abs_le.mp near).2
      linarith
    have hle : m ≤ k := le_of_le_add_half (le_of_mul_le_mul_right hclose hu)
    rw [hm]
    exact mul_le_mul_of_nonneg_right (by exact_mod_cast hle) hu.le

theorem le_natCast (h : RoundsTo q x) (hq : q < 2 ^ 53) (hn : q ≤ n) : x ≤ n := by
  cases h with
  | zero hzero => rwa [hzero] at hn
  | multiple k e low high near even =>
    obtain ⟨m, hm⟩ := exists_multiple_of_unit low hq n
    have hu := two_zpow_pos e
    have hclose : (k : ℚ) * 2 ^ e ≤ (m + 1 / 2) * 2 ^ e := by
      have := (abs_le.mp near).1
      linarith
    have hle : k ≤ m := le_of_le_add_half (le_of_mul_le_mul_right hclose hu)
    rw [hm]
    exact mul_le_mul_of_nonneg_right (by exact_mod_cast hle) hu.le

end RoundsTo

theorem toRat_ofNat {n : ℕ} (hn : n < 2 ^ 53) : (ofNat n).toRat = n := by
  cases n with
  | zero => rw [ofNat, round_zero, Nat.cast_zero]
  | succ n =>
    have h := round_roundsTo Nat.one_pos (by omega : 1 ≤ 2 * (n + 1))
    have hlt : ((n + 1 : ℕ) : ℚ) < 2 ^ 53 := by exact_mod_cast hn
    rw [Nat.cast_one, div_one] at h
    exact le_antisymm (h.le_natCast hlt le_rfl) (h.natCast_le hlt le_rfl)

end Dyadic
end Flowgraph
