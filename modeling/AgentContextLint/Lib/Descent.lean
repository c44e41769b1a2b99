import Mathlib.Data.List.Nodup
import Mathlib.Data.List.Perm.Basic

/-!
# The first descent of a list

A walk along a list compares the rank of every member with that of the one before it, and stops
at the first that is lower.

* With the places in another list as ranks, a list of the same members has no descent exactly if
  it is that list (`pairwise_idxOf_iff`), and a descent is a pair that the two lists put in
  opposite orders (`sublist_of_idxOf_lt`).
-/

namespace Descent

open List

variable {α : Type} {rank : α → Nat} {previous : α} {list : List α}

def firstDescent (rank : α → Nat) : (previous : α) → List α → Option (α × α)
  | _, [] => none
  | previous, current :: rest =>
    if rank current < rank previous then some (previous, current)
    else firstDescent rank current rest

/-- There is none exactly if the ranks never fall. -/
theorem firstDescent_eq_none : firstDescent rank previous list = none ↔
    (previous :: list).Pairwise fun first second => rank first ≤ rank second := by
  induction list generalizing previous with
  | nil => exact ⟨fun _ => pairwise_singleton _ _, fun _ => rfl⟩
  | cons current rest ih =>
    rw [firstDescent]
    split_ifs with lower
    · constructor
      · exact fun found => by cases found
      · intro sorted
        have rises := (pairwise_cons.mp sorted).1 current mem_cons_self
        omega
    · rw [ih]
      constructor
      · intro sorted
        refine pairwise_cons.mpr ⟨fun later member => ?_, sorted⟩
        have here : rank previous ≤ rank current := Nat.le_of_not_lt lower
        rcases mem_cons.mp member with eq | behind
        · rwa [eq]
        · exact Nat.le_trans here ((pairwise_cons.mp sorted).1 later behind)
      · exact fun sorted => (pairwise_cons.mp sorted).2

theorem firstDescent_eq_some {first second : α}
    (found : firstDescent rank previous list = some (first, second)) :
    [first, second].Sublist (previous :: list) ∧ rank second < rank first := by
  induction list generalizing previous with
  | nil => cases found
  | cons current rest ih =>
    rw [firstDescent] at found
    split_ifs at found with lower
    · cases found
      exact ⟨(singleton_sublist.mpr mem_cons_self).cons_cons _, lower⟩
    · rcases ih found with ⟨within, falls⟩
      exact ⟨within.cons previous, falls⟩

section Places

variable [BEq α] [LawfulBEq α] {reference : List α}

theorem pairwise_idxOf (distinct : reference.Nodup) :
    reference.Pairwise fun first second => reference.idxOf first < reference.idxOf second := by
  rw [pairwise_iff_getElem]
  intro i j inside within before
  rw [distinct.idxOf_getElem, distinct.idxOf_getElem]
  exact before

/-- A list of the same members has rising places exactly if it is the same list. -/
theorem pairwise_idxOf_iff (distinct : reference.Nodup) (same : list.Perm reference) :
    (list.Pairwise fun first second => reference.idxOf first ≤ reference.idxOf second) ↔
      list = reference := by
  have rises := (pairwise_idxOf distinct).imp fun {_ _} => Nat.le_of_lt
  constructor
  · intro sorted
    apply same.eq_of_pairwise _ sorted rises
    intro first second inList _ le ge
    exact (idxOf_inj (same.mem_iff.mp inList)).mp (Nat.le_antisymm le ge)
  · intro eq
    rwa [eq]

theorem sublist_of_idxOf_lt {first second : α} (member : second ∈ reference)
    (before : reference.idxOf first < reference.idxOf second) :
    [first, second].Sublist reference := by
  induction reference with
  | nil => cases member
  | cons head rest ih =>
    by_cases atHead : head = second
    · rw [atHead, idxOf_cons_self] at before
      exact absurd before (Nat.not_lt_zero _)
    · have behind : second ∈ rest := (mem_cons.mp member).resolve_left (Ne.symm atHead)
      by_cases here : head = first
      · rw [here]
        exact (singleton_sublist.mpr behind).cons_cons first
      · rw [idxOf_cons_ne _ here, idxOf_cons_ne _ atHead] at before
        exact (ih behind (Nat.lt_of_succ_lt_succ before)).cons head

end Places

end Descent
