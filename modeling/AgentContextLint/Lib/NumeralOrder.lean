import Mathlib.Tactic.Ring

/-!
# Comparing numerals as texts

Numerals without a leading zero need not be read as numbers to be compared: a longer one is larger,
and of two that are equally long the first digit that differs decides (`compare_numeral`).
-/

namespace AgentContextLint.NumeralOrder

open List

/-- A comparison that goes on to the next part where two parts are the same. -/
theorem eq_then {order first second : Ordering} (less : first = .lt → order = .lt)
    (greater : first = .gt → order = .gt) (same : first = .eq → order = second) :
    order = first.then second := by
  cases first with
  | lt => exact less rfl
  | eq => exact same rfl
  | gt => exact greater rfl

variable {α : Type} (digit : α → Nat) (base : Nat)

/-- The number that digits write. -/
def numeral (digits : List α) : Nat := digits.foldl (fun n d => n * base + digit d) 0

variable {digit base}

theorem foldl_eq (digits : List α) (n : Nat) : digits.foldl (fun n d => n * base + digit d) n =
    n * base ^ digits.length + numeral digit base digits := by
  induction digits generalizing n with
  | nil => simp [numeral]
  | cons d rest ih =>
    have whole : numeral digit base (d :: rest) =
        (0 * base + digit d) * base ^ rest.length + numeral digit base rest := ih _
    rw [foldl_cons, ih, whole, length_cons]
    ring

theorem numeral_cons (d : α) (rest : List α) :
    numeral digit base (d :: rest) = digit d * base ^ rest.length + numeral digit base rest := by
  rw [numeral, foldl_cons, foldl_eq, Nat.zero_mul, Nat.zero_add]

/-- A larger digit outweighs what is smaller than its place. -/
theorem outweighs {x y m n place : Nat} (less : x < y) (small : m < place) :
    x * place + m < y * place + n :=
  calc x * place + m < x * place + place := Nat.add_lt_add_left small _
    _ = (x + 1) * place := (Nat.succ_mul _ _).symm
    _ ≤ y * place := Nat.mul_le_mul_right _ less
    _ ≤ y * place + n := Nat.le_add_right _ _

variable {digits : List α}

theorem numeral_lt (small : ∀ d ∈ digits, digit d < base) :
    numeral digit base digits < base ^ digits.length := by
  induction digits with
  | nil => exact Nat.zero_lt_one
  | cons d rest ih =>
    have later := ih fun e member => small e (mem_cons_of_mem _ member)
    rw [numeral_cons, length_cons, Nat.pow_succ, Nat.mul_comm (base ^ _)]
    exact outweighs (n := 0) (small d mem_cons_self) later

theorem le_numeral {d : α} {rest : List α} (positive : 0 < digit d) :
    base ^ rest.length ≤ numeral digit base (d :: rest) := by
  rw [numeral_cons]
  calc base ^ rest.length = 1 * base ^ rest.length := (Nat.one_mul _).symm
    _ ≤ digit d * base ^ rest.length := Nat.mul_le_mul_right _ positive
    _ ≤ digit d * base ^ rest.length + numeral digit base rest := Nat.le_add_right _ _

/-- Digits without a leading zero, unless there is only one. -/
def Plain (digit : α → Nat) (digits : List α) : Prop :=
  ∃ d rest, digits = d :: rest ∧ (rest ≠ [] → 0 < digit d)

theorem Plain.ne_nil (plain : Plain digit digits) : digits ≠ [] := by
  rcases plain with ⟨d, rest, rfl, _⟩
  exact cons_ne_nil d rest

variable {first second : List α}

theorem numeral_lt_of_length (plain : Plain digit second) (nonempty : first ≠ [])
    (small : ∀ d ∈ first, digit d < base) (shorter : first.length < second.length) :
    numeral digit base first < numeral digit base second := by
  rcases plain with ⟨d, rest, rfl, leading⟩
  have some : 0 < first.length := List.length_pos_iff.mpr nonempty
  have atMost : first.length ≤ rest.length := Nat.le_of_lt_succ shorter
  have long : rest ≠ [] := ne_nil_of_length_pos (Nat.lt_of_lt_of_le some atMost)
  rcases exists_mem_of_ne_nil _ nonempty with ⟨e, member⟩
  have positive : 0 < base := Nat.lt_of_le_of_lt (Nat.zero_le _) (small e member)
  calc numeral digit base first < base ^ first.length := numeral_lt small
    _ ≤ base ^ rest.length := Nat.pow_le_pow_right positive atMost
    _ ≤ numeral digit base (d :: rest) := le_numeral (leading long)

variable {cmp : α → α → Ordering}

/-- Of numerals of one length the first digit that differs decides. -/
theorem compare_numeral_of_length (length : first.length = second.length)
    (mono : ∀ a ∈ first, ∀ b ∈ second, compare (digit a) (digit b) = cmp a b)
    (smallFirst : ∀ d ∈ first, digit d < base) (smallSecond : ∀ d ∈ second, digit d < base) :
    compare (numeral digit base first) (numeral digit base second) =
      List.compareLex cmp first second := by
  induction first generalizing second with
  | nil =>
    cases List.length_eq_zero_iff.mp length.symm
    rfl
  | cons a first ih =>
    cases second with
    | nil => cases length
    | cons b second =>
      have lengths : first.length = second.length := Nat.succ.inj length
      have later := ih lengths
        (fun c inFirst d inSecond => mono c (mem_cons_of_mem _ inFirst) d
          (mem_cons_of_mem _ inSecond))
        (fun d member => smallFirst d (mem_cons_of_mem _ member))
        (fun d member => smallSecond d (mem_cons_of_mem _ member))
      have heads := mono a mem_cons_self b mem_cons_self
      have boundFirst := numeral_lt fun d member => smallFirst d (mem_cons_of_mem a member)
      have boundSecond := numeral_lt fun d member => smallSecond d (mem_cons_of_mem b member)
      rw [lengths] at boundFirst
      rw [List.compareLex_cons_cons, ← heads, ← later, numeral_cons, numeral_cons, lengths]
      apply eq_then
      · intro less
        exact Nat.compare_eq_lt.mpr (outweighs (Nat.compare_eq_lt.mp less) boundFirst)
      · intro greater
        exact Nat.compare_eq_gt.mpr (outweighs (Nat.compare_eq_gt.mp greater) boundSecond)
      · intro same
        rw [Nat.compare_eq_eq.mp same, Nat.compare_eq_ite_lt, Nat.compare_eq_ite_lt]
        simp only [Nat.add_lt_add_iff_left]

/-- Plain numerals are compared by their lengths, then as texts. -/
theorem compare_numeral (plainFirst : Plain digit first) (plainSecond : Plain digit second)
    (mono : ∀ a ∈ first, ∀ b ∈ second, compare (digit a) (digit b) = cmp a b)
    (smallFirst : ∀ d ∈ first, digit d < base) (smallSecond : ∀ d ∈ second, digit d < base) :
    compare (numeral digit base first) (numeral digit base second) =
      (compare first.length second.length).then (List.compareLex cmp first second) := by
  apply eq_then
  · intro shorter
    exact Nat.compare_eq_lt.mpr (numeral_lt_of_length plainSecond plainFirst.ne_nil smallFirst
      (Nat.compare_eq_lt.mp shorter))
  · intro longer
    exact Nat.compare_eq_gt.mpr (numeral_lt_of_length plainFirst plainSecond.ne_nil smallSecond
      (Nat.compare_eq_gt.mp longer))
  · intro same
    exact compare_numeral_of_length (Nat.compare_eq_eq.mp same) mono smallFirst smallSecond

end AgentContextLint.NumeralOrder
