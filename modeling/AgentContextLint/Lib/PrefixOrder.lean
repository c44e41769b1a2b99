import Mathlib.Data.List.Chain

/-!
# Prefixes in the lexicographic order

The lists between a list and one of its continuations continue it as well (`prefix_of_between`).
So where a strictly increasing list of names has no name directly in front of a name below it, it
has a name `p` with a name below `p ++ [sep]` only if the name behind `p` continues it by something
less than the separator (`exists_between`).
-/

namespace PrefixOrder

open List

variable {α : Type} [LT α]

theorem lt_append_cons (p : List α) (x : α) (rest : List α) : p < p ++ x :: rest := by
  induction p with
  | nil => exact nil_lt_cons x rest
  | cons y p ih => exact cons_lt_cons_iff.mpr (.inr ⟨rfl, ih⟩)

variable [Std.Asymm fun first second : α => first < second]

theorem prefix_of_between {p u rest : List α} (above : p < u) (under : u < p ++ rest) : p <+: u := by
  induction p generalizing u with
  | nil => exact nil_prefix
  | cons x p ih =>
    cases u with
    | nil => exact absurd above (not_lt_nil _)
    | cons y u =>
      rw [cons_append, cons_lt_cons_iff] at under
      obtain less | ⟨rfl, later⟩ := cons_lt_cons_iff.mp above
      · obtain more | ⟨rfl, -⟩ := under
        · exact absurd more (Std.Asymm.asymm _ _ less)
        · exact absurd less (Std.Irrefl.irrefl _)
      · obtain more | ⟨-, under⟩ := under
        · exact absurd more (Std.Irrefl.irrefl _)
        · exact cons_prefix_cons.mpr ⟨rfl, ih later under⟩

theorem lt_of_append_lt_append {p first second : List α} (less : p ++ first < p ++ second) :
    first < second := by
  induction p with
  | nil => exact less
  | cons x p ih =>
    obtain self | ⟨-, less⟩ := cons_lt_cons_iff.mp less
    · exact absurd self (Std.Irrefl.irrefl x)
    · exact ih less

/-- What follows a name and is not below it hides the names that are. -/
theorem exists_between {sep : α} {names : List (List α)} (increasing : names.Pairwise (· < ·))
    (apart : names.IsChain fun first second => ¬ first ++ [sep] <+: second) {p name : List α}
    (member : p ∈ names) (other : name ∈ names) (below : p ++ [sep] <+: name) :
    ∃ u ∈ names, ∃ x, x < sep ∧ p ++ [x] <+: u := by
  obtain ⟨tail, rfl⟩ := below
  rw [append_assoc, singleton_append] at other
  obtain ⟨front, back, rfl⟩ := append_of_mem member
  have less : p < p ++ sep :: tail := lt_append_cons p sep tail
  obtain ⟨-, behind, across⟩ := pairwise_append.mp increasing
  have inBack : p ++ sep :: tail ∈ back := by
    obtain inFront | same | inBack := (by simpa using other :
      p ++ sep :: tail ∈ front ∨ sep :: tail = [] ∨ p ++ sep :: tail ∈ back)
    · exact absurd (across _ inFront p List.mem_cons_self) (List.lt_asymm less)
    · cases same
    · exact inBack
  cases back with
  | nil => cases inBack
  | cons u back =>
    have first : ¬ p ++ [sep] <+: u := by
      have chain := (isChain_append.mp apart).2.1
      exact (isChain_cons_cons.mp chain).1
    have above : p < u := rel_of_pairwise_cons behind List.mem_cons_self
    have under : u < p ++ sep :: tail := by
      obtain rfl | later := mem_cons.mp inBack
      · exact absurd ⟨tail, by simp⟩ first
      · exact rel_of_pairwise_cons (pairwise_cons.mp behind).2 later
    refine ⟨u, by simp, ?_⟩
    obtain ⟨rest, rfl⟩ := prefix_of_between above under
    cases rest with
    | nil => exact absurd above (by rw [List.append_nil]; exact List.lt_irrefl p)
    | cons x rest =>
      obtain small | ⟨rfl, -⟩ := cons_lt_cons_iff.mp (lt_of_append_lt_append under)
      · exact ⟨x, small, rest, by simp⟩
      · exact absurd ⟨rest, by simp⟩ first

end PrefixOrder
