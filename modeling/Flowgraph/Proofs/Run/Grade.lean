import Flowgraph.Proofs.Numeric.Dyadic
import Flowgraph.Run.Message
import Mathlib.Tactic.SplitIfs
/-!
# Grades

A success is graded in whole numbers, although seven tenths of the budget are worked out with 53
digits only. The share that stands for seven tenths is a little too small, and its product with a
budget may be rounded either way; but it is rounded past no whole number, and where it falls short of
one it does so by too little to matter.
-/
namespace Flowgraph
namespace Grade

theorem toRat_wellDoneShare : wellDoneShare.toRat = 6305039478318694 / 2 ^ 53 := by
  have hshare : wellDoneShare = ⟨6305039478318694, -53⟩ := by decide +kernel
  rw [hshare, Dyadic.toRat, div_eq_mul_inv]
  norm_num

theorem share_roundsTo {budget : ℕ} (hb : budget < 2 ^ 53) :
    Dyadic.RoundsTo (budget * (6305039478318694 / 2 ^ 53))
      ((Dyadic.ofNat budget).mul wellDoneShare).toRat := by
  cases budget with
  | zero =>
    have hnum : (Dyadic.ofNat 0).ratio.1 = 0 := by decide
    rw [Dyadic.mul, hnum, Nat.zero_mul, Dyadic.round_zero, Nat.cast_zero, zero_mul]
    exact .zero rfl
  | succ n =>
    have hone : (1 : ℚ) ≤ (n + 1 : ℕ) := by
      rw [Nat.cast_add_one]
      linarith [n.cast_nonneg (α := ℚ)]
    rw [← toRat_wellDoneShare, ← Dyadic.toRat_ofNat hb]
    apply Dyadic.mul_roundsTo
    rw [Dyadic.toRat_ofNat hb, toRat_wellDoneShare]
    linarith

theorem isWellUnder_iff {steps budget : ℕ} (hb : budget < UInt32.size) :
    isWellUnder steps budget = true ↔ 10 * steps < 7 * budget := by
  have hlt : budget < 2 ^ 53 := by
    unfold UInt32.size at hb
    omega
  have hround := share_roundsTo hlt
  have hb' : (budget : ℚ) < 2 ^ 32 := by exact_mod_cast hb
  have hexact : (budget : ℚ) * (6305039478318694 / 2 ^ 53) < 2 ^ 53 := by linarith
  rw [isWellUnder, Dyadic.exceeds_iff]
  generalize ((Dyadic.ofNat budget).mul wellDoneShare).toRat = x at hround
  constructor
  · intro hsteps
    -- what is held for seven tenths is less than these, and rounding does not get past the steps
    by_contra hnot
    have hle : 7 * (budget : ℚ) ≤ 10 * steps := by exact_mod_cast not_lt.mp hnot
    have hbelow : (budget : ℚ) * (6305039478318694 / 2 ^ 53) ≤ steps := by
      linarith [budget.cast_nonneg (α := ℚ)]
    exact absurd hsteps (not_lt.mpr (hround.le_natCast hexact hbelow))
  · intro hless
    -- a tenth is left at least, and the share falls short by much less than that
    have hle : 10 * (steps : ℚ) + 1 ≤ 7 * budget := by exact_mod_cast hless
    have hnear := (abs_le.mp hround.near_enough).2
    rw [le_div_iff₀ (by norm_num)] at hnear
    linarith

theorem reference?_eq_some_iff {level : Level} {n : ℕ} :
    reference? level = some n ↔ ∃ m, level.minSteps = some m ∧ 1 ≤ m.toNat ∧ n = m.toNat := by
  simp only [reference?, Option.filter_eq_some_iff, Option.map_eq_some_iff, decide_eq_true_eq]
  constructor
  · rintro ⟨⟨m, hm, rfl⟩, hpos⟩
    exact ⟨m, hm, hpos, rfl⟩
  · rintro ⟨m, hm, hpos, rfl⟩
    exact ⟨⟨m, hm, rfl⟩, hpos⟩

/-- The text that a grade adds to the message of a success. -/
def suffix (grade : Option Grade) : String := (grade.map praise).getD ""

theorem suffix_injective {a b : Option Grade} : suffix a = suffix b → a = b := by
  rcases a with _ | _ | _ | _ <;> rcases b with _ | _ | _ | _ <;> simp [suffix, praise]

theorem success_eq_iff (steps : ℕ) (level : Level) (grade : Option Grade) :
    Message.success steps level = "Success! 🎉" ++ suffix grade ↔ ofRun steps level = grade := by
  change "Success! 🎉" ++ suffix (ofRun steps level) = "Success! 🎉" ++ suffix grade ↔ _
  rw [String.append_right_inj]
  constructor
  · exact suffix_injective
  · exact congrArg suffix

/-- Of a budget of ninety, seven tenths are rounded to the number before sixty-three. -/
example : (Dyadic.ofNat 90).mul wellDoneShare = ⟨63 * 2 ^ 47 - 1, -47⟩ ∧
    isWellUnder 62 90 = true ∧ isWellUnder 63 90 = false := by
  decide +kernel

end Grade

namespace Level

/-- A success in as few steps as the reference solution has. One of no steps counts as none. -/
def MatchedBy (level : Level) (steps : UInt32) : Prop :=
  ∃ m, level.minSteps = some m ∧ 1 ≤ m.toNat ∧ steps.toNat = m.toNat

def NearlyMatchedBy (level : Level) (steps : UInt32) : Prop :=
  ∃ m, level.minSteps = some m ∧ 1 ≤ m.toNat ∧ steps.toNat ≤ m.toNat + 2

def UnderspentBy (level : Level) (steps : UInt32) : Prop :=
  10 * steps.toNat < 7 * level.maxSteps.toNat

end Level

namespace Grade
variable {steps : UInt32} {level : Level}

theorem matchedBy_iff : reference? level = some steps.toNat ↔ level.MatchedBy steps :=
  reference?_eq_some_iff

/-- The bound on what is two steps above the reference solution does not matter. -/
theorem nearlyMatchedBy_iff :
    (reference? level).any (fun m => steps.toNat ≤ min (m + 2) 4294967295) = true ↔
      level.NearlyMatchedBy steps := by
  have hsteps := steps.toNat_lt_size
  unfold UInt32.size at hsteps
  have hmin : ∀ m, steps.toNat ≤ min (m + 2) 4294967295 ↔ steps.toNat ≤ m + 2 := by
    intro m
    omega
  rw [Option.any_eq_true]
  constructor
  · rintro ⟨n, hn, hle⟩
    obtain ⟨m, hm, hpos, rfl⟩ := reference?_eq_some_iff.mp hn
    exact ⟨m, hm, hpos, (hmin _).mp (of_decide_eq_true hle)⟩
  · rintro ⟨m, hm, hpos, hle⟩
    have hn := reference?_eq_some_iff.mpr ⟨m, hm, hpos, rfl⟩
    exact ⟨m.toNat, hn, decide_eq_true ((hmin _).mpr hle)⟩

theorem underspentBy_iff :
    isWellUnder steps.toNat level.maxSteps.toNat = true ↔ level.UnderspentBy steps :=
  isWellUnder_iff level.maxSteps.toNat_lt_size

instance : Decidable (level.MatchedBy steps) := decidable_of_iff _ matchedBy_iff

instance : Decidable (level.NearlyMatchedBy steps) := decidable_of_iff _ nearlyMatchedBy_iff

instance : Decidable (level.UnderspentBy steps) := decidable_of_iff _ underspentBy_iff

theorem ofRun_eq (steps : UInt32) (level : Level) :
    ofRun steps.toNat level =
      if level.MatchedBy steps then some .optimal
      else if level.NearlyMatchedBy steps then some .great
      else if level.UnderspentBy steps then some .wellDone
      else none := by
  simp only [ofRun, matchedBy_iff, nearlyMatchedBy_iff, underspentBy_iff]

theorem ofRun_eq_iff (steps : UInt32) (level : Level) :
    (ofRun steps.toNat level = some .optimal ↔ level.MatchedBy steps) ∧
      (ofRun steps.toNat level = some .great ↔
        ¬level.MatchedBy steps ∧ level.NearlyMatchedBy steps) ∧
      (ofRun steps.toNat level = some .wellDone ↔
        ¬level.MatchedBy steps ∧ ¬level.NearlyMatchedBy steps ∧ level.UnderspentBy steps) ∧
      (ofRun steps.toNat level = none ↔
        ¬level.MatchedBy steps ∧ ¬level.NearlyMatchedBy steps ∧ ¬level.UnderspentBy steps) := by
  rw [ofRun_eq]
  split_ifs with hmatched hnearly hunderspent
  · simp [hmatched]
  · simp [hmatched, hnearly]
  · simp [hmatched, hnearly, hunderspent]
  · simp [hmatched, hnearly, hunderspent]

end Grade

/-- The message of a success says how the steps compare with the reference solution, and failing that
with seven tenths of the budget, each in whole numbers. The product with seven tenths that decides this
in fact is the exact product with the number that is held for them, rounded to 53 digits. -/
theorem Message.success_graded (steps : UInt32) (level : Level) :
    (Message.success steps.toNat level = "Success! 🎉" ++ " (Optimal solution!)" ↔
        level.MatchedBy steps) ∧
      (Message.success steps.toNat level = "Success! 🎉" ++ " (Great job!)" ↔
        ¬level.MatchedBy steps ∧ level.NearlyMatchedBy steps) ∧
      (Message.success steps.toNat level = "Success! 🎉" ++ " (Well done!)" ↔
        ¬level.MatchedBy steps ∧ ¬level.NearlyMatchedBy steps ∧ level.UnderspentBy steps) ∧
      (Message.success steps.toNat level = "Success! 🎉" ↔
        ¬level.MatchedBy steps ∧ ¬level.NearlyMatchedBy steps ∧ ¬level.UnderspentBy steps) ∧
      ∃! share : ℚ, Dyadic.RoundsTo (level.maxSteps.toNat * (6305039478318694 / 2 ^ 53)) share ∧
        (Grade.isWellUnder steps.toNat level.maxSteps.toNat = true ↔ steps.toNat < share) := by
  have hlt : level.maxSteps.toNat < 2 ^ 53 := by
    have hsize := level.maxSteps.toNat_lt_size
    unfold UInt32.size at hsize
    omega
  have hshare := Grade.share_roundsTo hlt
  obtain ⟨hoptimal, hgreat, hwellDone, hplain⟩ := Grade.ofRun_eq_iff steps level
  have hsuccess := Grade.success_eq_iff steps.toNat level
  refine ⟨(hsuccess (some .optimal)).trans hoptimal, (hsuccess (some .great)).trans hgreat,
    (hsuccess (some .wellDone)).trans hwellDone, ?_, _, ⟨hshare, Dyadic.exceeds_iff⟩, ?_⟩
  · have hnone := hsuccess none
    rw [Grade.suffix, Option.map_none, Option.getD_none, String.append_empty] at hnone
    exact hnone.trans hplain
  · intro share hother
    exact hother.1.unique hshare

end Flowgraph
