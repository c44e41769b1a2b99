import AgentContextLint.Lib.Utf8
import Mathlib.Data.List.Sort

/-!
# Sorting by a comparison

* `sortBy` is the stable sort of a list by a three-valued comparison.
* `compareBytes` compares the UTF-8 forms of strings, byte by byte, and `compareUnits` compares
  strings by their code units, which is the order of `<` on them.
-/

namespace Sorting

variable {α : Type}

def sortBy (cmp : α → α → Ordering) (l : List α) : List α :=
  l.insertionSort fun first second => (cmp first second).isLE

variable (cmp : α → α → Ordering)

theorem sortBy_perm (l : List α) : (sortBy cmp l).Perm l := List.perm_insertionSort _ l

@[simp] theorem mem_sortBy {l : List α} {x : α} : x ∈ sortBy cmp l ↔ x ∈ l :=
  List.mem_insertionSort _

@[simp] theorem length_sortBy (l : List α) : (sortBy cmp l).length = l.length :=
  List.length_insertionSort _ l

theorem nodup_sortBy {l : List α} : (sortBy cmp l).Nodup ↔ l.Nodup := (sortBy_perm cmp l).nodup_iff

theorem nodup_eraseDups [BEq α] [LawfulBEq α] (l : List α) : l.eraseDups.Nodup := by
  induction size : l.length using Nat.strong_induction_on generalizing l with
  | _ n ih =>
    cases l with
    | nil => exact List.nodup_nil
    | cons x rest =>
      rw [List.eraseDups_cons, List.nodup_cons]
      constructor
      · rw [List.mem_eraseDups, List.mem_filter]
        simp
      · have shorter := List.length_filter_le (fun y => !y == x) rest
        exact ih _ (by rw [← size, List.length_cons]; omega) _ rfl

theorem eraseDups_concat [BEq α] [LawfulBEq α] [DecidableEq α] (front : List α) (x : α) :
    (front ++ [x]).eraseDups = if x ∈ front then front.eraseDups else front.eraseDups ++ [x] := by
  rw [List.eraseDups_append]
  split_ifs with known
  · simp [List.removeAll, known]
  · simp [List.removeAll, known, List.eraseDups_cons]

/-- Two values are compared by something that belongs to them. -/
def comparingWith {β : Type} (value : β → α) (left right : β) : Ordering :=
  cmp (value left) (value right)

instance {β : Type} (value : β → α) [Std.TransCmp cmp] : Std.TransCmp (comparingWith cmp value) where
  eq_swap {_ _} := @Std.OrientedCmp.eq_swap _ cmp _ _ _
  isLE_trans {_ _ _} := @Std.TransCmp.isLE_trans _ cmp _ _ _ _

section Lawful

variable [Std.TransCmp cmp] {first second : List α}

theorem isLE_or_isLE (first second : α) :
    (cmp first second).isLE = true ∨ (cmp second first).isLE = true := by
  have swap : cmp second first = (cmp first second).swap := Std.OrientedCmp.eq_swap
  rw [swap]
  cases cmp first second <;> decide

theorem eq_of_isLE_of_isLE {first second : α} (le : (cmp first second).isLE = true)
    (ge : (cmp second first).isLE = true) : cmp first second = .eq := by
  have swap : cmp second first = (cmp first second).swap := Std.OrientedCmp.eq_swap
  rw [swap] at ge
  revert le ge
  cases cmp first second <;> decide

theorem sorted_sortBy (l : List α) :
    (sortBy cmp l).Pairwise fun first second => (cmp first second).isLE = true := by
  have total : Std.Total fun first second => (cmp first second).isLE = true := ⟨isLE_or_isLE cmp⟩
  have trans : IsTrans α fun first second => (cmp first second).isLE = true :=
    ⟨fun _ _ _ => Std.TransCmp.isLE_trans⟩
  exact List.pairwise_insertionSort _ l

/-- The sorted form of a list is one of its permutations, and only one if ties are equalities. -/
theorem eq_of_sorted_of_perm (ties : ∀ x ∈ first, ∀ y ∈ first, cmp x y = .eq → x = y)
    (perm : first.Perm second) (left : first.Pairwise fun x y => (cmp x y).isLE = true)
    (right : second.Pairwise fun x y => (cmp x y).isLE = true) : first = second := by
  apply perm.eq_of_pairwise _ left right
  intro x y inFirst inSecond le ge
  exact ties x inFirst y (perm.mem_iff.mpr inSecond) (eq_of_isLE_of_isLE cmp le ge)

/-- If only equal members of a list compare equal, its sorted form does not depend on the order of
the list. -/
theorem sortBy_eq_of_perm (ties : ∀ x ∈ first, ∀ y ∈ first, cmp x y = .eq → x = y)
    (perm : first.Perm second) : sortBy cmp first = sortBy cmp second := by
  apply eq_of_sorted_of_perm cmp _ _ (sorted_sortBy cmp first) (sorted_sortBy cmp second)
  · intro x inFirst y inSecond
    exact ties x ((mem_sortBy cmp).mp inFirst) y ((mem_sortBy cmp).mp inSecond)
  · exact (sortBy_perm cmp first).trans (perm.trans (sortBy_perm cmp second).symm)

end Lawful

end Sorting

namespace Utf8

open Utf16

variable {left right : Text}

def compareBytes (left right : Text) : Ordering := compare (encode left) (encode right)

instance : Std.TransCmp compareBytes :=
  inferInstanceAs (Std.TransCmp (compareOn encode))

theorem compareBytes_eq_iff :
    compareBytes left right = .eq ↔ encode left = encode right := Std.compare_eq_iff_eq

theorem eq_of_compareBytes (leftOk : wellFormed left = true)
    (rightOk : wellFormed right = true) (same : compareBytes left right = .eq) : left = right :=
  encode_injective leftOk rightOk (compareBytes_eq_iff.mp same)

/-- Two values are compared by a text that belongs to them. -/
def comparingBytes {α : Type} (text : α → Text) (left right : α) : Ordering :=
  compareBytes (text left) (text right)

instance {α : Type} (text : α → Text) : Std.TransCmp (comparingBytes text) :=
  inferInstanceAs (Std.TransCmp (compareOn fun value => encode (text value)))

end Utf8

namespace Utf16

variable {left right : Text}

def compareUnits (left right : Text) : Ordering := compare left right

instance : Std.TransCmp compareUnits := inferInstanceAs (Std.TransCmp (compare : Text → _ → _))

theorem compareUnits_eq_iff : compareUnits left right = .eq ↔ left = right :=
  Std.compare_eq_iff_eq

theorem compareUnits_eq_lt_iff : compareUnits left right = .lt ↔ left < right := by
  unfold compareUnits
  induction left generalizing right with
  | nil => cases right <;> simp
  | cons u left ih =>
    cases right with
    | nil => simp
    | cons v right =>
      have first : compare u v = .lt ↔ u < v := Std.compare_eq_lt
      have same : compare u v = .eq ↔ u = v := Std.compare_eq_iff_eq
      rw [List.compare_eq_compareLex, List.compareLex_cons_cons, ← List.compare_eq_compareLex,
        List.cons_lt_cons_iff, Ordering.then_eq_lt, first, same, ih]

theorem lt_trichotomy (left right : Text) : left < right ∨ left = right ∨ right < left := by
  cases order : compareUnits left right with
  | lt => exact .inl (compareUnits_eq_lt_iff.mp order)
  | eq => exact .inr (.inl (compareUnits_eq_iff.mp order))
  | gt => exact .inr (.inr (compareUnits_eq_lt_iff.mp (Std.OrientedCmp.gt_iff_lt.mp order)))

/-- Distinct strings, sorted by their code units, are strictly increasing. -/
theorem sortBy_compareUnits_strict {list : List Text} (distinct : list.Nodup) :
    (Sorting.sortBy compareUnits list).Pairwise (· < ·) := by
  have sorted := Sorting.sorted_sortBy compareUnits list
  have apart : (Sorting.sortBy compareUnits list).Pairwise (· ≠ ·) :=
    (Sorting.nodup_sortBy compareUnits).mpr distinct
  refine (sorted.and apart).imp fun {left right} ⟨le, ne⟩ => compareUnits_eq_lt_iff.mp ?_
  have unequal : compareUnits left right ≠ .eq := fun same => ne (compareUnits_eq_iff.mp same)
  revert le unequal
  cases compareUnits left right <;> decide

/-- Sorting strings by their code units does not depend on their order. -/
theorem sortBy_compareUnits_of_perm {first second : List Text} (perm : first.Perm second) :
    Sorting.sortBy compareUnits first = Sorting.sortBy compareUnits second :=
  Sorting.sortBy_eq_of_perm compareUnits
    (fun _ _ _ _ same => compareUnits_eq_iff.mp same) perm

end Utf16
