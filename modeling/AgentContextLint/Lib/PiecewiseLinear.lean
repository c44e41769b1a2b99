import AgentContextLint.Lib.HalfUp

/-!
# Piecewise linear curves on whole numbers

A curve is given by points that rise, strictly in their inputs and weakly in their outputs. Between
two points the output is interpolated and rounded half up, outside of them it is the output of the
nearest end. Whatever is rounded, the curve does not leave the outputs of its ends
(`evaluate_bounds`) and does not fall (`evaluate_mono`).
-/

namespace PiecewiseLinear

open HalfUp
open List (cons_ne_nil getLast_cons isChain_cons_cons)

structure Point where
  input : Int
  output : Int

def Rises (left right : Point) : Prop := left.input < right.input ∧ left.output ≤ right.output

instance (left right : Point) : Decidable (Rises left right) := inferInstanceAs (Decidable (_ ∧ _))

def segment (left right : Point) (input : Int) : Int :=
  left.output + roundHalfUp ((input - left.input) * (right.output - left.output))
    (right.input - left.input)

/-- The output on the first segment that ends at the input or behind it. -/
def interpolate (left : Point) (input : Int) : List Point → Option Int
  | [] => none
  | right :: rest =>
    if right.input < input then interpolate right input rest
    else some (segment left right input)

/-- The output of a curve from its first point to its last one. -/
def evaluate (first : Point) (rest : List Point) (input : Int) : Option Int :=
  let last := (first :: rest).getLast (cons_ne_nil first rest)
  if input ≤ first.input then some first.output
  else if last.input ≤ input then some last.output
  else interpolate first input rest

/-! ## One segment -/

variable {left right : Point} {input other : Int}

theorem offset_nonneg (rises : Rises left right) (behind : left.input ≤ input) :
    0 ≤ (input - left.input) * (right.output - left.output) :=
  mul_nonneg (sub_nonneg.mpr behind) (sub_nonneg.mpr rises.2)

theorem segment_bounds (rises : Rises left right) (behind : left.input ≤ input)
    (inside : input ≤ right.input) :
    left.output ≤ segment left right input ∧ segment left right input ≤ right.output := by
  have span : 0 < right.input - left.input := sub_pos.mpr rises.1
  have natural := roundHalfUp_nonneg (offset_nonneg rises behind) span
  have numerator : (input - left.input) * (right.output - left.output) ≤
      (right.output - left.output) * (right.input - left.input) := by
    rw [mul_comm]
    exact mul_le_mul_of_nonneg_left (by omega) (sub_nonneg.mpr rises.2)
  have small := roundHalfUp_le (offset_nonneg rises behind) span numerator
  unfold segment
  omega

theorem segment_mono (rises : Rises left right) (behind : left.input ≤ input)
    (le : input ≤ other) : segment left right input ≤ segment left right other := by
  have span : 0 < right.input - left.input := sub_pos.mpr rises.1
  have numerator : (input - left.input) * (right.output - left.output) ≤
      (other - left.input) * (right.output - left.output) :=
    mul_le_mul_of_nonneg_right (by omega) (sub_nonneg.mpr rises.2)
  have mono := roundHalfUp_mono (offset_nonneg rises behind) span numerator
  unfold segment
  omega

/-! ## All segments -/

variable {rest : List Point} {value value' : Int}

theorem output_le_getLast {first : Point} (rising : (first :: rest).IsChain Rises) :
    first.output ≤ ((first :: rest).getLast (cons_ne_nil first rest)).output := by
  induction rest generalizing first with
  | nil => exact le_rfl
  | cons right rest ih =>
    have rises := (isChain_cons_cons.mp rising).1
    rw [getLast_cons (cons_ne_nil right rest)]
    exact rises.2.trans (ih (isChain_cons_cons.mp rising).2)

theorem interpolate_bounds (rising : (left :: rest).IsChain Rises) (behind : left.input ≤ input)
    (found : interpolate left input rest = some value) :
    left.output ≤ value ∧ value ≤ ((left :: rest).getLast (cons_ne_nil left rest)).output := by
  induction rest generalizing left with
  | nil => cases found
  | cons right rest ih =>
    rcases isChain_cons_cons.mp rising with ⟨rises, later⟩
    rw [interpolate] at found
    rw [getLast_cons (cons_ne_nil right rest)]
    split_ifs at found with past
    · have bounds := ih later past.le found
      exact ⟨rises.2.trans bounds.1, bounds.2⟩
    · cases found
      have bounds := segment_bounds rises behind (not_lt.mp past)
      exact ⟨bounds.1, bounds.2.trans (output_le_getLast later)⟩

/-- Across a join, the output stays below the point where the input still is, and above it behind
it. -/
theorem interpolate_mono (rising : (left :: rest).IsChain Rises) (behind : left.input ≤ input)
    (le : input ≤ other) (found : interpolate left input rest = some value)
    (found' : interpolate left other rest = some value') : value ≤ value' := by
  induction rest generalizing left with
  | nil => cases found
  | cons right rest ih =>
    rcases isChain_cons_cons.mp rising with ⟨rises, later⟩
    rw [interpolate] at found found'
    split_ifs at found found' with past past' past'
    · exact ih later past.le found found'
    · omega
    · cases found
      exact (segment_bounds rises behind (not_lt.mp past)).2.trans
        (interpolate_bounds later past'.le found').1
    · cases found
      cases found'
      exact segment_mono rises behind le

theorem interpolate_isSome (ends : input ≤ ((left :: rest).getLast (cons_ne_nil left rest)).input)
    (starts : left.input < input) : ∃ value, interpolate left input rest = some value := by
  induction rest generalizing left with
  | nil => exact absurd (starts.trans_le ends) (lt_irrefl _)
  | cons right rest ih =>
    rw [interpolate]
    split_ifs with past
    · rw [getLast_cons (cons_ne_nil right rest)] at ends
      exact ih ends past
    · exact ⟨_, rfl⟩

/-! ## Curves -/

variable {first : Point}

theorem evaluate_isSome (first : Point) (rest : List Point) (input : Int) :
    ∃ value, evaluate first rest input = some value := by
  unfold evaluate
  dsimp only
  split_ifs with before behind
  · exact ⟨_, rfl⟩
  · exact ⟨_, rfl⟩
  · exact interpolate_isSome (not_le.mp behind).le (not_le.mp before)

theorem evaluate_bounds (rising : (first :: rest).IsChain Rises)
    (found : evaluate first rest input = some value) :
    first.output ≤ value ∧
      value ≤ ((first :: rest).getLast (cons_ne_nil first rest)).output := by
  unfold evaluate at found
  dsimp only at found
  split_ifs at found with before behind
  · cases found
    exact ⟨le_rfl, output_le_getLast rising⟩
  · cases found
    exact ⟨output_le_getLast rising, le_rfl⟩
  · exact interpolate_bounds rising (not_le.mp before).le found

theorem evaluate_mono (rising : (first :: rest).IsChain Rises) (le : input ≤ other)
    (found : evaluate first rest input = some value)
    (found' : evaluate first rest other = some value') : value ≤ value' := by
  have bounds := evaluate_bounds rising found
  have bounds' := evaluate_bounds rising found'
  unfold evaluate at found found'
  dsimp only at found found'
  split_ifs at found found' with before before' behind' behind before' behind' before' behind'
  · cases found
    exact bounds'.1
  · cases found
    exact bounds'.1
  · cases found
    exact bounds'.1
  · omega
  · cases found'
    exact bounds.2
  · omega
  · omega
  · cases found'
    exact bounds.2
  · exact interpolate_mono rising (not_le.mp before).le le found found'

end PiecewiseLinear
