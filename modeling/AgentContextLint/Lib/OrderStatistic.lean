import Mathlib.Data.List.Basic
import Mathlib.Order.Lattice

/-!
# Order statistics

The entry of a list for a rank is the smallest one that at least so many entries do not exceed. In a
sorted list it stands at the place before the rank, and it grows with the rank.
-/

namespace OrderStatistic

open List

variable {α : Type} [LinearOrder α] {values : List α} {v w : α} {rank : Nat}

/-- How many entries do not exceed a bound. -/
def countUpTo (values : List α) (bound : α) : Nat := values.countP fun entry => entry ≤ bound

variable {others : List α}

theorem countUpTo_of_perm (perm : values.Perm others) :
    countUpTo values v = countUpTo others v := perm.countP_eq _

/-- An entry is the smallest one that at least `rank` entries do not exceed. -/
structure IsRanked (values : List α) (rank : Nat) (v : α) : Prop where
  member : v ∈ values
  enough : rank ≤ countUpTo values v
  least : ∀ w ∈ values, rank ≤ countUpTo values w → v ≤ w

theorem IsRanked.of_perm (ranked : IsRanked values rank v) (perm : values.Perm others) :
    IsRanked others rank v where
  member := perm.mem_iff.mp ranked.member
  enough := (countUpTo_of_perm perm) ▸ ranked.enough
  least := fun w member enough =>
    ranked.least w (perm.mem_iff.mpr member) (countUpTo_of_perm perm ▸ enough)

/-- A greater rank has a greater entry. -/
theorem IsRanked.mono {higher : Nat} (first : IsRanked values rank v)
    (second : IsRanked values higher w) (ranks : rank ≤ higher) : v ≤ w :=
  first.least w second.member (Nat.le_trans ranks second.enough)

variable {place : Nat}

section

variable (sorted : values.Pairwise (· ≤ ·))

include sorted

/-- In a sorted list the entries up to a place do not exceed the entry there. -/
theorem lt_countUpTo_getElem (inside : place < values.length) :
    place < countUpTo values values[place] := by
  have front : ∀ entry ∈ values.take (place + 1), entry ≤ values[place] := by
    intro entry member
    rcases getElem_of_mem member with ⟨i, short, rfl⟩
    rw [length_take] at short
    rw [getElem_take]
    rcases Nat.lt_or_ge i place with before | after
    · exact pairwise_iff_getElem.mp sorted i place _ inside before
    · have same : i = place := by omega
      subst same
      exact le_refl _
  have all : countUpTo (values.take (place + 1)) values[place] = place + 1 := by
    rw [countUpTo, countP_eq_length.mpr fun entry member => decide_eq_true (front entry member),
      length_take_of_le inside]
  have whole : countUpTo values values[place] = _ :=
    (congrArg (countUpTo · values[place]) (take_append_drop (place + 1) values)).symm
  rw [whole, countUpTo, countP_append]
  change place < countUpTo (values.take (place + 1)) values[place] + _
  omega

/-- In a sorted list what is below the entry at a place is not exceeded by fewer entries. -/
theorem countUpTo_le_of_lt (inside : place < values.length)
    (below : w < values[place]) : countUpTo values w ≤ place := by
  have back : ∀ entry ∈ values.drop place, ¬ entry ≤ w := by
    intro entry member
    rcases getElem_of_mem member with ⟨i, short, rfl⟩
    rw [getElem_drop]
    rw [length_drop] at short
    have bound : place + i < values.length := by omega
    have later : values[place] ≤ values[place + i] := by
      rcases Nat.eq_zero_or_pos i with rfl | positive
      · exact le_refl _
      · exact pairwise_iff_getElem.mp sorted place (place + i) inside _ (by omega)
    exact not_le_of_gt (lt_of_lt_of_le below later)
  have none : countUpTo (values.drop place) w = 0 :=
    countP_eq_zero.mpr fun entry member => by
      rw [decide_eq_true_iff]
      exact back entry member
  have whole : countUpTo values w = _ :=
    (congrArg (countUpTo · w) (take_append_drop place values)).symm
  rw [whole, countUpTo, countP_append]
  change countUpTo (values.take place) w + countUpTo (values.drop place) w ≤ place
  rw [none]
  exact Nat.le_trans countP_le_length (length_take_le _ _)

/-- The entry for a rank stands in a sorted list at the place before the rank. -/
theorem isRanked_getElem (inside : place < values.length) :
    IsRanked values (place + 1) values[place] where
  member := getElem_mem inside
  enough := lt_countUpTo_getElem sorted inside
  least := by
    intro w _ enough
    by_contra above
    exact absurd (countUpTo_le_of_lt sorted inside (lt_of_not_ge above)) (by omega)

end

end OrderStatistic
