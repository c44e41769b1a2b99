import Mathlib.Algebra.BigOperators.Intervals
import Mathlib.Tactic.Ring

/-!
# Rolling hashes

A ring of cells with an index holds its elements from the index on, all around. Writing the cell at
the index and going on drops the oldest element and takes in a new one (`held_push`).

The hash of a window is the value of a polynomial. It rolls along with the window: from the hash of
the old window, the element that leaves and the one that enters (`polynomial_roll`).

`windows` are the windows of a list that has further elements behind them, one for each element that
leaves a queue as the rest of the list enters it (`foldl_enter`).
-/

namespace RollingHash

open List

/-! ## Rings -/

section Rings

variable {α β : Type} {index : Nat} {cells : List α}

/-- What a ring holds, the oldest element first. -/
def held (cells : List α) (index : Nat) : List α := cells.drop index ++ cells.take index

theorem length_held (inside : index < cells.length) : (held cells index).length = cells.length := by
  rw [held, length_append, length_drop, length_take]
  omega

theorem held_eq_cons (inside : index < cells.length) :
    held cells index = cells[index] :: (cells.drop (index + 1) ++ cells.take index) := by
  rw [held, drop_eq_getElem_cons inside, cons_append]

/-- The oldest element makes room for a new one. -/
theorem held_push (inside : index < cells.length) (a : α) :
    held (cells.set index a) ((index + 1) % cells.length) = (held cells index).tail ++ [a] := by
  rw [held_eq_cons inside, tail_cons, append_assoc]
  have front : (cells.set index a).take (index + 1) = cells.take index ++ [a] := by
    have shorter : index < (cells.set index a).length := by rwa [length_set]
    rw [take_succ_eq_append_getElem shorter, getElem_set_self, take_set_of_le le_rfl]
  rcases Nat.eq_or_lt_of_le (Nat.succ_le_of_lt inside) with last | earlier
  · have whole : (cells.set index a).take (index + 1) = cells.set index a :=
      take_of_length_le (by rw [length_set]; omega)
    have none : cells.drop (index + 1) = [] := drop_eq_nil_of_le (by omega)
    rw [← last, Nat.mod_self, held, drop_zero, take_zero, append_nil, none,
      nil_append, ← front, whole]
  · rw [Nat.mod_eq_of_lt earlier, held, front, drop_set_of_lt (Nat.lt_succ_self index)]

end Rings

/-! ## Polynomials -/

section Polynomials

variable {R : Type} [CommRing R] (base : R)

/-- The value of a polynomial, the coefficient of the highest power first. -/
def polynomial (cs : List R) : R := cs.foldl (fun hash c => base * hash + c) 0

theorem polynomial_concat (cs : List R) (c : R) :
    polynomial base (cs ++ [c]) = base * polynomial base cs + c := by
  rw [polynomial, foldl_append]
  rfl

theorem polynomial_cons (c : R) (cs : List R) :
    polynomial base (c :: cs) = base ^ cs.length * c + polynomial base cs := by
  induction cs using List.reverseRecOn with
  | nil =>
    rw [polynomial, polynomial, foldl_cons, foldl_nil, foldl_nil, length_nil]
    ring
  | append_singleton cs d ih =>
    rw [← cons_append, polynomial_concat, ih, polynomial_concat, length_append, length_singleton]
    ring

/-- The hash of the next window. -/
theorem polynomial_roll (c d : R) (cs : List R) : polynomial base (cs ++ [d]) =
    base * polynomial base (c :: cs) + d - base ^ (cs.length + 1) * c := by
  rw [polynomial_concat, polynomial_cons]
  ring

theorem polynomial_eq_sum (cs : List R) : polynomial base cs =
    ∑ j ∈ Finset.range cs.length, cs.getD j 0 * base ^ (cs.length - 1 - j) := by
  induction cs with
  | nil => rfl
  | cons c cs ih =>
    rw [polynomial_cons, ih, length_cons, Finset.sum_range_succ']
    rw [add_comm]
    apply congrArg₂
    · apply Finset.sum_congr rfl
      intro j inside
      rw [getD_cons_succ]
      congr 2
      omega
    · rw [getD_cons_zero, mul_comm]
      congr 2

end Polynomials

/-! ## Queues -/

section Queues

variable {α σ τ : Type} {width : Nat}

/-- The windows of a list that have further elements behind them. -/
def windows (width : Nat) : List α → List (List α)
  | [] => []
  | a :: rest =>
    if width ≤ rest.length then (a :: rest).take width :: windows width rest else []

/-- Elements in front of a whole window. -/
theorem windows_cons {a : α} {rest : List α} (enough : width ≤ rest.length) :
    windows width (a :: rest) = (a :: rest).take width :: windows width rest := by
  rw [windows, if_pos enough]

theorem windows_of_le {as : List α} (short : as.length ≤ width) : windows width as = [] := by
  cases as with
  | nil => rfl
  | cons a rest =>
    rw [length_cons] at short
    rw [windows, if_neg (by omega)]

/-- A queue of one length that elements enter and leave, with something done for each window whose
first element leaves. -/
theorem foldl_enter {enter : σ → α → σ} {queue : σ → List α} {out : σ → τ}
    {valid : σ → Prop} {emit : τ → List α → τ} (positive : 0 < width)
    (step : ∀ s a, valid s → valid (enter s a) ∧ queue (enter s a) = (queue s).tail ++ [a] ∧
      out (enter s a) = emit (out s) (queue s))
    (long : ∀ s, valid s → (queue s).length = width) (s : σ) (start : valid s) (as : List α) :
    out (as.foldl enter s) = (windows width (queue s ++ as)).foldl emit (out s) := by
  induction as generalizing s with
  | nil =>
    rw [append_nil, windows_of_le (le_of_eq (long s start))]
    rfl
  | cons a as ih =>
    rcases step s a start with ⟨valid', queue', out'⟩
    have size := long s start
    cases shape : queue s with
    | nil =>
      rw [shape] at size
      exact absurd size (Nat.ne_of_lt positive)
    | cons first others =>
      rw [shape, length_cons] at size
      rw [foldl_cons, ih (enter s a) valid', queue', out', shape, tail_cons,
        cons_append, windows_cons (by rw [length_append, length_cons]; omega),
        foldl_cons, append_assoc, singleton_append]
      have whole : (first :: (others ++ a :: as)).take width = first :: others := by
        rw [← cons_append, take_append_of_le_length (by rw [length_cons]; omega)]
        exact take_of_length_le (by rw [length_cons]; omega)
      rw [whole]

end Queues

end RollingHash
