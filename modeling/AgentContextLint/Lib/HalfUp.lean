import Mathlib.Algebra.BigOperators.Ring.List
import Mathlib.Data.Rat.Floor
import Mathlib.Tactic.Positivity

/-!
# Rounding half up

A quotient of whole numbers that is rounded to the nearest one, and up in the middle. On numbers
that are not negative it is the `round` of the quotient (`roundHalfUp_eq_round`), so that it keeps
the order of quotients (`roundHalfUp_le_of_le`) and does not leave the bounds of a quotient.
-/

namespace HalfUp

/-- The division of big integers cuts off towards zero. -/
def roundHalfUp (numerator denominator : Int) : Int :=
  (numerator + denominator.tdiv 2).tdiv denominator

variable {numerator denominator : Int}

section

variable (natural : 0 ≤ numerator)

include natural

theorem roundHalfUp_eq_ediv (positive : 0 < denominator) :
    roundHalfUp numerator denominator = (numerator + denominator / 2) / denominator := by
  have half : denominator.tdiv 2 = denominator / 2 := Int.tdiv_eq_ediv_of_nonneg positive.le
  have sum : 0 ≤ numerator + denominator / 2 := by omega
  rw [roundHalfUp, half, Int.tdiv_eq_ediv_of_nonneg sum]

theorem roundHalfUp_eq_round (positive : 0 < denominator) :
    roundHalfUp numerator denominator = round ((numerator : ℚ) / denominator) := by
  have cast : (0 : ℚ) < denominator := Int.cast_pos.mpr positive
  have below := Int.emod_add_mul_ediv (numerator + denominator / 2) denominator
  have small := Int.emod_lt_of_pos (numerator + denominator / 2) positive
  have least := Int.emod_nonneg (numerator + denominator / 2) positive.ne'
  rw [roundHalfUp_eq_ediv natural positive, eq_comm, round_eq_iff, Set.mem_Ico]
  generalize (numerator + denominator / 2) / denominator = quotient at below ⊢
  have lower : 2 * (denominator * quotient) - denominator ≤ 2 * numerator := by omega
  have upper : 2 * numerator < 2 * (denominator * quotient) + denominator := by omega
  have lowerCast : 2 * ((denominator : ℚ) * quotient) - denominator ≤ 2 * numerator := by
    exact_mod_cast lower
  have upperCast : 2 * (numerator : ℚ) < 2 * (denominator * quotient) + denominator := by
    exact_mod_cast upper
  constructor
  · rw [le_div_iff₀ cast]
    linarith
  · rw [div_lt_iff₀ cast]
    linarith

/-- A greater quotient is not rounded to less. -/
theorem roundHalfUp_le_of_le {other otherDenominator : Int}
    (positive : 0 < denominator) (otherNatural : 0 ≤ other) (otherPositive : 0 < otherDenominator)
    (le : (numerator : ℚ) / denominator ≤ (other : ℚ) / otherDenominator) :
    roundHalfUp numerator denominator ≤ roundHalfUp other otherDenominator := by
  rw [roundHalfUp_eq_round natural positive, roundHalfUp_eq_round otherNatural otherPositive,
    round_eq, round_eq]
  exact Int.floor_mono (by linarith)

theorem roundHalfUp_mono {other : Int} (positive : 0 < denominator)
    (le : numerator ≤ other) : roundHalfUp numerator denominator ≤ roundHalfUp other denominator := by
  apply roundHalfUp_le_of_le natural positive (natural.trans le) positive
  have cast : (0 : ℚ) < denominator := Int.cast_pos.mpr positive
  exact div_le_div_of_nonneg_right (Int.cast_le.mpr le) cast.le

end

theorem roundHalfUp_mul {factor : Int} (natural : 0 ≤ factor) (positive : 0 < denominator) :
    roundHalfUp (factor * denominator) denominator = factor := by
  have cast : (denominator : ℚ) ≠ 0 := (Int.cast_pos.mpr positive).ne'
  rw [roundHalfUp_eq_round (mul_nonneg natural positive.le) positive, Int.cast_mul,
    mul_div_cancel_right₀ _ cast, round_intCast]

theorem roundHalfUp_nonneg (natural : 0 ≤ numerator) (positive : 0 < denominator) :
    0 ≤ roundHalfUp numerator denominator := by
  rw [roundHalfUp_eq_ediv natural positive]
  exact Int.ediv_nonneg (by omega) positive.le

/-- A mean of values up to a bound is not rounded above the bound. -/
theorem roundHalfUp_le {bound : Int} (natural : 0 ≤ numerator) (positive : 0 < denominator)
    (le : numerator ≤ bound * denominator) : roundHalfUp numerator denominator ≤ bound := by
  have boundNatural : 0 ≤ bound := by
    by_contra negative
    have less := mul_neg_of_neg_of_pos (not_le.mp negative) positive
    omega
  have mono := roundHalfUp_mono natural positive le
  rwa [roundHalfUp_mul boundNatural positive] at mono

/-! ## Weighted sums -/

variable {α : Type} {as : List α} {weight value other : α → Int}

end HalfUp
