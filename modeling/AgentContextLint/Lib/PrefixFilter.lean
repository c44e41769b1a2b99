import AgentContextLint.Lib.Sorting
import Mathlib.Data.Finset.Card

/-!
# Prefix filters

Two lists that share enough entries share one of the first entries of each, when both are sorted by
one order. The smallest shared entry is such a one: in either list only entries that are not shared
come before it. What is not shared may be left out of the lists before they are cut.
-/

namespace AgentContextLint.PrefixFilter

open Sorting
open List (mem_filter mem_toFinset)

variable {α : Type} {cmp : α → α → Ordering} {list : List α}

/-- The entries that are not the same in the order come before all that they are not behind. -/
theorem mem_take_of_few {x : α} {k : Nat}
    (sorted : list.Pairwise fun first second => cmp first second = .lt) (member : x ∈ list)
    (few : list.countP (fun other => cmp other x = .lt) < k) : x ∈ list.take k := by
  rw [← List.take_append_drop k list] at member sorted few
  rcases List.mem_append.mp member with front | back
  · exact front
  · have below : ∀ other ∈ list.take k, cmp other x = .lt := fun other inFront =>
      (List.pairwise_append.mp sorted).2.2 other inFront x back
    have all : (list.take k).countP (fun other => cmp other x = .lt) = (list.take k).length :=
      List.countP_eq_length.mpr fun other inFront => decide_eq_true (below other inFront)
    have long : k < list.length := by
      have nonempty := List.length_pos_of_mem back
      rw [List.length_drop] at nonempty
      exact Nat.lt_of_sub_pos nonempty
    rw [List.countP_append, all, List.length_take_of_le (Nat.le_of_lt long)] at few
    exact absurd few (Nat.not_lt.mpr (Nat.le_add_right _ _))

variable [Std.TransCmp cmp]

/-- Sorting by an order that tells the entries apart. -/
theorem sortBy_strict (distinct : list.Nodup) (apart : ∀ x y, cmp x y = .eq → x = y) :
    (sortBy cmp list).Pairwise fun first second => cmp first second = .lt := by
  have both := (sorted_sortBy cmp list).and ((nodup_sortBy cmp).mpr distinct)
  refine both.imp fun {first second} facts => ?_
  rcases facts with ⟨le, unequal⟩
  cases order : cmp first second with
  | lt => rfl
  | eq => exact absurd (apart _ _ order) unequal
  | gt =>
    rw [order] at le
    cases le

variable (cmp) in
theorem exists_smallest (nonempty : list ≠ []) : ∃ x ∈ list, ∀ other ∈ list, cmp other x ≠ .lt := by
  have sorted := sorted_sortBy cmp list
  have itself : ∀ x, cmp x x = .eq := fun x => Std.ReflCmp.compare_self
  cases found : sortBy cmp list with
  | nil => exact absurd (List.Perm.nil_eq (found ▸ sortBy_perm cmp list)).symm nonempty
  | cons x rest =>
    rw [found] at sorted
    have inside : ∀ {other}, other ∈ list ↔ other = x ∨ other ∈ rest := fun {other} => by
      rw [← mem_sortBy cmp, found, List.mem_cons]
    refine ⟨x, inside.mpr (Or.inl rfl), fun other member less => ?_⟩
    rcases inside.mp member with rfl | later
    · cases less.symm.trans (itself _)
    · have le := List.rel_of_pairwise_cons sorted later
      rw [Std.OrientedCmp.gt_of_lt less] at le
      cases le

section Shared

variable [DecidableEq α] {first second : List α} {kept : α → Bool} {k : Nat}

/-- Before the smallest shared entry there are only entries that are not shared. -/
theorem mem_take_of_smallest {x : α} (distinct : first.Nodup) (apart : ∀ x y, cmp x y = .eq → x = y)
    (inFirst : x ∈ first) (isKept : kept x = true)
    (smallest : ∀ other ∈ first, other ∈ second → cmp other x ≠ .lt)
    (enough : first.length < (first.toFinset ∩ second.toFinset).card + k) :
    x ∈ (sortBy cmp (first.filter kept)).take k := by
  apply mem_take_of_few (sortBy_strict (distinct.filter _) apart)
    ((mem_sortBy cmp).mpr (mem_filter.mpr ⟨inFirst, isKept⟩))
  have unshared : (first.filter fun other => cmp other x = .lt).toFinset ⊆
      first.toFinset \ second.toFinset := by
    intro other member
    rcases mem_filter.mp (mem_toFinset.mp member) with ⟨inside, less⟩
    refine Finset.mem_sdiff.mpr ⟨mem_toFinset.mpr inside, fun also => ?_⟩
    exact smallest other inside (mem_toFinset.mp also) (of_decide_eq_true less)
  have parts := Finset.card_sdiff_add_card_inter first.toFinset second.toFinset
  rw [List.toFinset_card_of_nodup distinct] at parts
  calc (sortBy cmp (first.filter kept)).countP (fun other => cmp other x = .lt)
      = (first.filter kept).countP (fun other => cmp other x = .lt) := (sortBy_perm cmp _).countP_eq _
    _ ≤ first.countP (fun other => cmp other x = .lt) := List.filter_sublist.countP_le
    _ = (first.filter fun other => cmp other x = .lt).toFinset.card := by
      rw [List.countP_eq_length_filter, List.toFinset_card_of_nodup (distinct.filter _)]
    _ ≤ (first.toFinset \ second.toFinset).card := Finset.card_le_card unshared
    _ < k := by omega

/-- Two lists share one of the first `k` of the entries that are kept, if they keep all that they
share, and fewer than `k` entries of each are not shared. -/
theorem exists_shared (distinctFirst : first.Nodup) (distinctSecond : second.Nodup)
    (apart : ∀ x y, cmp x y = .eq → x = y) (keeps : ∀ x ∈ first, x ∈ second → kept x = true)
    (some : 0 < (first.toFinset ∩ second.toFinset).card)
    (enoughFirst : first.length < (first.toFinset ∩ second.toFinset).card + k)
    (enoughSecond : second.length < (first.toFinset ∩ second.toFinset).card + k) :
    ∃ x, x ∈ (sortBy cmp (first.filter kept)).take k ∧
      x ∈ (sortBy cmp (second.filter kept)).take k := by
  have nonempty : first.filter (· ∈ second) ≠ [] := by
    rcases Finset.card_pos.mp some with ⟨x, member⟩
    rcases Finset.mem_inter.mp member with ⟨inFirst, inSecond⟩
    exact List.ne_nil_of_mem (mem_filter.mpr
      ⟨mem_toFinset.mp inFirst, decide_eq_true (mem_toFinset.mp inSecond)⟩)
  rcases exists_smallest cmp nonempty with ⟨x, shared, smallest⟩
  rcases mem_filter.mp shared with ⟨inFirst, alsoSecond⟩
  have inSecond : x ∈ second := of_decide_eq_true alsoSecond
  have isKept := keeps x inFirst inSecond
  have below : ∀ other ∈ first, other ∈ second → cmp other x ≠ .lt := fun other one two =>
    smallest other (mem_filter.mpr ⟨one, decide_eq_true two⟩)
  refine ⟨x, mem_take_of_smallest distinctFirst apart inFirst isKept below enoughFirst, ?_⟩
  rw [Finset.inter_comm] at enoughSecond
  exact mem_take_of_smallest distinctSecond apart inSecond isKept
    (fun other two one => below other one two) enoughSecond

end Shared

end AgentContextLint.PrefixFilter
