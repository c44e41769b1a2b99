import Mathlib.Data.List.Basic

/-!
# Binary search

The loop of a search for the first position of an interval where a test fails. On a test that
fails at every later position once it has failed, `bisect` finds the boundary
(`bisect_boundary`); two tests, one of which implies the other, have their boundaries in that
order (`bisect_mono`). In a list, the members in front of the boundary are the ones that pass
(`take_bisect`). `lastPassing` is the loop that keeps a position where the test holds instead; it
ends right in front of the boundary (`lastPassing_add_one`).
-/

namespace Bisect

/-- `while (low < high) { middle = ⌊(low + high) / 2⌋; … }`, for at most `fuel` rounds. -/
def loop (goesRight : Nat → Bool) : (fuel low high : Nat) → Nat
  | 0, low, _ => low
  | fuel + 1, low, high =>
    if low < high then
      let middle := (low + high) / 2
      if goesRight middle then loop goesRight fuel (middle + 1) high
      else loop goesRight fuel low middle
    else low

/-- The search in the first `size` positions. -/
def bisect (goesRight : Nat → Bool) (size : Nat) : Nat := loop goesRight size 0 size

/-- The test fails at every later position once it has failed. -/
def Antitone (goesRight : Nat → Bool) (size : Nat) : Prop :=
  ∀ i j, i ≤ j → j < size → goesRight j = true → goesRight i = true

variable {goesRight : Nat → Bool} {size : Nat} {other : Nat → Bool} {fuel low high : Nat}

section

variable (antitone : Antitone goesRight size)

include antitone

/-- What the interval means is kept: the test holds below it and fails behind it. -/
theorem loop_boundary (enough : high ≤ low + fuel) (order : low ≤ high) (within : high ≤ size)
    (below : ∀ i < low, goesRight i = true)
    (behind : ∀ i, high ≤ i → i < size → goesRight i = false) :
    loop goesRight fuel low high ≤ size ∧ (∀ i < loop goesRight fuel low high, goesRight i = true) ∧
      ∀ i, loop goesRight fuel low high ≤ i → i < size → goesRight i = false := by
  induction fuel generalizing low high with
  | zero =>
    have same : low = high := by omega
    subst same
    exact ⟨within, below, behind⟩
  | succ fuel ih =>
    rw [loop]
    split
    · rename_i nonempty
      dsimp only
      split
      · rename_i right
        refine ih (by omega) (by omega) within (fun i inside => ?_) behind
        exact antitone i ((low + high) / 2) (by omega) (by omega) right
      · rename_i left
        refine ih (by omega) (by omega) (by omega) below (fun i outside inside => ?_)
        by_contra holds
        exact left (antitone ((low + high) / 2) i outside inside (by simpa using holds))
    · rename_i empty
      have same : low = high := by omega
      subst same
      exact ⟨within, below, behind⟩

/-- The search finds the boundary of the test. -/
theorem bisect_boundary :
    bisect goesRight size ≤ size ∧ (∀ i < bisect goesRight size, goesRight i = true) ∧
      ∀ i, bisect goesRight size ≤ i → i < size → goesRight i = false :=
  loop_boundary antitone (by omega) (Nat.zero_le _) (Nat.le_refl _) (by omega) (by omega)

theorem bisect_mono
    (antitone' : Antitone other size) (implies : ∀ i < size, goesRight i = true → other i = true) :
    bisect goesRight size ≤ bisect other size := by
  obtain ⟨within, below, -⟩ := bisect_boundary antitone
  obtain ⟨-, -, behind⟩ := bisect_boundary antitone'
  by_contra shorter
  have inside : bisect other size < size := by omega
  have holds := implies _ inside (below _ (by omega))
  rw [behind _ (Nat.le_refl _) inside] at holds
  cases holds

/-- The boundary lies behind every position where the test holds. -/
theorem lt_bisect {i : Nat} (inside : i < size)
    (holds : goesRight i = true) : i < bisect goesRight size := by
  obtain ⟨-, -, behind⟩ := bisect_boundary antitone
  by_contra outside
  rw [behind i (by omega) inside] at holds
  cases holds

end

/-! ## Searching for the last position that passes -/

/-- `while (low + 1 < high) { middle = ⌊(low + high) / 2⌋; … }`, for at most `fuel` rounds. -/
def lastLoop (goesRight : Nat → Bool) : (fuel low high : Nat) → Nat
  | 0, low, _ => low
  | fuel + 1, low, high =>
    if low + 1 < high then
      let middle := (low + high) / 2
      if goesRight middle then lastLoop goesRight fuel middle high
      else lastLoop goesRight fuel low middle
    else low

def lastPassing (goesRight : Nat → Bool) (size : Nat) : Nat := lastLoop goesRight size 0 size

theorem lastLoop_congr (within : high ≤ size) (agree : ∀ i < size, goesRight i = other i) :
    lastLoop goesRight fuel low high = lastLoop other fuel low high := by
  induction fuel generalizing low high with
  | zero => rfl
  | succ fuel ih =>
    rw [lastLoop, lastLoop]
    split
    · dsimp only
      rw [agree ((low + high) / 2) (by omega), ih within, ih (by omega)]
    · rfl

/-- The loop looks at the positions of the interval only. -/
theorem lastPassing_congr (agree : ∀ i < size, goesRight i = other i) :
    lastPassing goesRight size = lastPassing other size := lastLoop_congr (Nat.le_refl _) agree

/-- The test holds at the lower end and fails from the upper one on. -/
theorem lastLoop_boundary (antitone : Antitone goesRight size)
    (enough : high ≤ low + fuel + 1) (order : low < high) (within : high ≤ size)
    (holds : goesRight low = true) (behind : ∀ i, high ≤ i → i < size → goesRight i = false) :
    lastLoop goesRight fuel low high < size ∧ goesRight (lastLoop goesRight fuel low high) = true ∧
      ∀ i, lastLoop goesRight fuel low high < i → i < size → goesRight i = false := by
  induction fuel generalizing low high with
  | zero =>
    refine ⟨by rw [lastLoop]; omega, holds, fun i after inside => behind i ?_ inside⟩
    rw [lastLoop] at after
    omega
  | succ fuel ih =>
    rw [lastLoop]
    split
    · dsimp only
      split
      · rename_i right
        exact ih (by omega) (by omega) within right behind
      · rename_i left
        refine ih (by omega) (by omega) (by omega) holds (fun i outside inside => ?_)
        by_contra passes
        exact left (antitone ((low + high) / 2) i outside inside (by simpa using passes))
    · exact ⟨by omega, holds, fun i after inside => behind i (by omega) inside⟩

theorem lastPassing_add_one (antitone : Antitone goesRight size) (nonempty : 0 < size)
    (holds : goesRight 0 = true) : lastPassing goesRight size + 1 = bisect goesRight size := by
  obtain ⟨inside, passes, fails⟩ : lastPassing goesRight size < size ∧
      goesRight (lastPassing goesRight size) = true ∧
      ∀ i, lastPassing goesRight size < i → i < size → goesRight i = false :=
    lastLoop_boundary antitone (by omega) nonempty (Nat.le_refl _) holds (by omega)
  obtain ⟨within, below, -⟩ := bisect_boundary antitone
  refine Nat.le_antisymm (lt_bisect antitone inside passes) ?_
  by_contra longer
  have still := below (lastPassing goesRight size + 1) (by omega)
  rw [fails _ (Nat.lt_succ_self _) (by omega)] at still
  cases still

/-! ## Searching a list -/

section Lists

variable {α : Type} {test : α → Bool} {list : List α}

section

variable (pairwise : list.Pairwise fun first second => test second → test first)

include pairwise

/-- Where a member passes, the members in front of it do. -/
theorem antitone_of_pairwise : Antitone (fun i => (list[i]?).any test) list.length := by
  intro i j le inside holds
  obtain rfl | less := Nat.eq_or_lt_of_le le
  · exact holds
  · have before : i < list.length := Nat.lt_trans less inside
    simp only [List.getElem?_eq_getElem inside, List.getElem?_eq_getElem before, Option.any_some]
      at holds ⊢
    exact List.pairwise_iff_getElem.mp pairwise i j before inside less holds

theorem take_bisect :
    list.take (bisect (fun i => (list[i]?).any test) list.length) = list.filter test ∧
      list.drop (bisect (fun i => (list[i]?).any test) list.length) =
        list.filter fun x => !test x := by
  obtain ⟨within, below, behind⟩ := bisect_boundary (antitone_of_pairwise pairwise)
  generalize bisect (fun i => (list[i]?).any test) list.length = k at within below behind
  have front : ∀ x ∈ list.take k, test x = true := by
    intro x member
    obtain ⟨i, inside, rfl⟩ := List.mem_take_iff_getElem.mp member
    have holds := below i (by omega)
    rwa [List.getElem?_eq_getElem (by omega), Option.any_some] at holds
  have back : ∀ x ∈ list.drop k, test x = false := by
    intro x member
    obtain ⟨i, inside, rfl⟩ := List.mem_drop_iff_getElem.mp member
    have fails := behind (k + i) (by omega) (by omega)
    rwa [List.getElem?_eq_getElem (by omega), Option.any_some] at fails
  have split := List.take_append_drop k list
  constructor
  · have passes : (list.drop k).filter test = [] :=
      List.filter_eq_nil_iff.mpr fun x member => Bool.eq_false_iff.mp (back x member)
    conv_rhs => rw [← split, List.filter_append, List.filter_eq_self.mpr front, passes,
      List.append_nil]
  · have passes : (list.take k).filter (fun x => !test x) = [] :=
      List.filter_eq_nil_iff.mpr fun x member => by simp [front x member]
    have fails : (list.drop k).filter (fun x => !test x) = list.drop k :=
      List.filter_eq_self.mpr fun x member => by simp [back x member]
    conv_rhs => rw [← split, List.filter_append, passes, fails, List.nil_append]

end

end Lists

end Bisect
