import Mathlib.Data.List.Basic

/-!
# UTF-16 strings

An ECMAScript string is a finite sequence of 16-bit code units, with or without
paired surrogates. `Text` is that sequence; `js` spells a literal, and the
operations below are the standard-library ones programs over such strings use.

* `wellFormed` accepts exactly the strings whose surrogates are all paired.
  `wellFormed_append_cons` splits it at any unit that is not a surrogate, which is
  what cutting and joining at ASCII separators needs.
* `codePoints` is the iteration of a string by code points.
* `splitRuns` is `split` at maximal runs of separators. Its nonempty pieces are
  the nonempty pieces of the split at single separators
  (`filter_ne_nil_splitRuns`).
-/

namespace Utf16

open List

variable {u : CodeUnit}

abbrev CodeUnit := UInt16

/-- An ECMAScript string value. -/
abbrev Text := List CodeUnit

instance decidableMem (text : Text) (texts : List Text) : Decidable (text ∈ texts) :=
  inferInstance

instance decidableBall (text : Text) (p : CodeUnit → Prop) [DecidablePred p] :
    Decidable (∀ u ∈ text, p u) :=
  decidableBAll p text

/-- The code units of one Unicode scalar value. -/
def ofChar (c : Char) : Text :=
  if c.toNat < 0x10000 then [UInt16.ofNat c.toNat]
  else [UInt16.ofNat (0xd800 + (c.toNat - 0x10000) / 0x400),
    UInt16.ofNat (0xdc00 + (c.toNat - 0x10000) % 0x400)]

def js (s : String) : Text := s.toList.flatMap ofChar

/-! ## Surrogates -/

def isHighSurrogate (u : CodeUnit) : Bool := 0xd800 ≤ u.toNat && u.toNat ≤ 0xdbff

def isLowSurrogate (u : CodeUnit) : Bool := 0xdc00 ≤ u.toNat && u.toNat ≤ 0xdfff

def isSurrogate (u : CodeUnit) : Bool := isHighSurrogate u || isLowSurrogate u

/-- Every high surrogate is followed by a low one, and no low one stands alone. -/
def wellFormed : Text → Bool
  | [] => true
  | [u] => !isSurrogate u
  | u :: v :: rest =>
    if isHighSurrogate u then isLowSurrogate v && wellFormed rest
    else !isLowSurrogate u && wellFormed (v :: rest)

theorem not_low_of_high (high : isHighSurrogate u = true) : isLowSurrogate u = false := by
  simp only [isHighSurrogate, isLowSurrogate, Bool.and_eq_true, decide_eq_true_eq,
    Bool.and_eq_false_iff, decide_eq_false_iff_not] at *
  omega

theorem isSurrogate_eq_false_iff :
    isSurrogate u = false ↔ isHighSurrogate u = false ∧ isLowSurrogate u = false := by
  simp [isSurrogate]

/-- A leading unit that is no surrogate can be dropped. -/
theorem wellFormed_cons (plain : isSurrogate u = false) (s : Text) :
    wellFormed (u :: s) = wellFormed s := by
  obtain ⟨notHigh, notLow⟩ := isSurrogate_eq_false_iff.mp plain
  cases s with
  | nil => simp [wellFormed, plain]
  | cons v rest => simp [wellFormed, notHigh, notLow]

/-- Well-formedness splits at a unit that is no surrogate. -/
theorem wellFormed_append_cons {sep : CodeUnit} (plain : isSurrogate sep = false) (s t : Text) :
    wellFormed (s ++ sep :: t) = (wellFormed s && wellFormed t) := by
  obtain ⟨notHigh, notLow⟩ := isSurrogate_eq_false_iff.mp plain
  induction s using wellFormed.induct with
  | case1 => simp [wellFormed_cons plain, wellFormed]
  | case2 u =>
    cases high : isHighSurrogate u <;>
      simp [wellFormed, isSurrogate, high, notLow, wellFormed_cons plain]
  | case3 u v rest high ih => simp [wellFormed, high, ih, Bool.and_assoc]
  | case4 u v rest notHigh' ih =>
    rw [cons_append] at ih
    simp [wellFormed, notHigh', ih, Bool.and_assoc]

/-- A string without surrogates is well formed. -/
theorem wellFormed_of_plain {s : Text} (plain : ∀ u ∈ s, isSurrogate u = false) :
    wellFormed s = true := by
  induction s with
  | nil => rfl
  | cons u rest ih =>
    rw [wellFormed_cons (plain u mem_cons_self)]
    exact ih fun v member => plain v (mem_cons_of_mem u member)

/-- `toLowerCase` as far as ASCII goes. -/
def asciiLowerCase (s : Text) : Text :=
  s.map fun u => if 0x41 ≤ u ∧ u ≤ 0x5a then u + 0x20 else u

/-! ## Code points -/

/-- The code points of a string; an unpaired surrogate is a code point by itself. -/
def codePoints : Text → List Nat
  | [] => []
  | [u] => [u.toNat]
  | u :: v :: rest =>
    if isHighSurrogate u && isLowSurrogate v then
      (0x10000 + (u.toNat - 0xd800) * 0x400 + (v.toNat - 0xdc00)) :: codePoints rest
    else u.toNat :: codePoints (v :: rest)

/-- The code units of a code point, an unpaired surrogate being its own unit. -/
def ofCodePoint (n : Nat) : Text :=
  if n < 0x10000 then [.ofNat n]
  else [.ofNat (0xd800 + (n - 0x10000) / 0x400), .ofNat (0xdc00 + (n - 0x10000) % 0x400)]

theorem ofCodePoint_toNat (u : CodeUnit) : ofCodePoint u.toNat = [u] := by
  have small : u.toNat < 0x10000 := u.toNat_lt
  rw [ofCodePoint, if_pos small, UInt16.ofNat_toNat]

/-- Reading a string by code points loses nothing. -/
theorem flatMap_ofCodePoint_codePoints (s : Text) : (codePoints s).flatMap ofCodePoint = s := by
  induction s using codePoints.induct with
  | case1 => rfl
  | case2 u => simp [codePoints, ofCodePoint_toNat]
  | case3 u v rest pair ih =>
    have bounds := pair
    simp only [isHighSurrogate, isLowSurrogate, Bool.and_eq_true, decide_eq_true_eq] at bounds
    rw [codePoints, if_pos pair, flatMap_cons, ih, ofCodePoint, if_neg (by omega)]
    have high : 0xd800 + (0x10000 + (u.toNat - 0xd800) * 0x400 + (v.toNat - 0xdc00) - 0x10000) /
        0x400 = u.toNat := by omega
    have low : 0xdc00 + (0x10000 + (u.toNat - 0xd800) * 0x400 + (v.toNat - 0xdc00) - 0x10000) %
        0x400 = v.toNat := by omega
    rw [high, low, UInt16.ofNat_toNat, UInt16.ofNat_toNat]
    rfl
  | case4 u v rest pair ih =>
    rw [codePoints, if_neg pair, flatMap_cons, ih, ofCodePoint_toNat]
    rfl

/-! ## Splitting at separators -/

section Split

variable {α : Type} (p : α → Bool)

/-- Put `x` in front of the first piece. -/
def consHead (x : α) (pieces : List (List α)) : List (List α) := pieces.modifyHead (x :: ·)

/-- Split at maximal runs of separators; `inRun` says that the unit before was one. -/
def splitRunsFrom : Bool → List α → List (List α)
  | _, [] => [[]]
  | inRun, x :: xs =>
    if p x then
      if inRun then splitRunsFrom true xs else [] :: splitRunsFrom true xs
    else consHead x (splitRunsFrom false xs)

/-- `split` with a separator expression of the form `/[…]+/`. -/
def splitRuns (xs : List α) : List (List α) := splitRunsFrom p false xs

/-- Inside a run the pieces differ from a fresh split in empty pieces only. -/
theorem filter_ne_nil_splitRunsFrom_true (xs : List α) :
    (splitRunsFrom p true xs).filter (· ≠ []) = (splitRunsFrom p false xs).filter (· ≠ []) := by
  cases xs with
  | nil => rfl
  | cons x xs => by_cases sep : p x <;> simp [splitRunsFrom, sep]

/-- The nonempty pieces are those of the split at single separators, and the two
splits also start with the same piece. -/
theorem splitRunsFrom_false_eq (xs : List α) :
    ∃ piece rest rest', splitRunsFrom p false xs = piece :: rest ∧
      xs.splitOnP p = piece :: rest' ∧ rest.filter (· ≠ []) = rest'.filter (· ≠ []) := by
  induction xs with
  | nil => exact ⟨[], [], [], rfl, splitOnP_nil, rfl⟩
  | cons x xs ih =>
    obtain ⟨piece, rest, rest', runs, singles, agree⟩ := ih
    by_cases sep : p x
    · refine ⟨[], splitRunsFrom p true xs, xs.splitOnP p, by simp [splitRunsFrom, sep], ?_, ?_⟩
      · rw [splitOnP_cons_eq_if_modifyHead, if_pos sep]
      · rw [filter_ne_nil_splitRunsFrom_true, runs, singles, filter_cons, filter_cons, agree]
    · refine ⟨x :: piece, rest, rest', ?_, ?_, agree⟩
      · simp [splitRunsFrom, sep, consHead, runs]
      · rw [splitOnP_cons_eq_if_modifyHead, if_neg sep, singles, modifyHead_cons]

theorem filter_ne_nil_splitRuns (xs : List α) :
    (splitRuns p xs).filter (· ≠ []) = (xs.splitOnP p).filter (· ≠ []) := by
  obtain ⟨piece, rest, rest', runs, singles, agree⟩ := splitRunsFrom_false_eq p xs
  rw [splitRuns, runs, singles, filter_cons, filter_cons, agree]

variable {p}

/-- Induction along the separators of a list. -/
theorem splitOnP_induction {motive : List α → Prop}
    (clean : ∀ xs, (∀ x ∈ xs, p x = false) → motive xs)
    (cut : ∀ pre sep post, p sep = true → motive pre → motive post → motive (pre ++ sep :: post))
    (xs : List α) : motive xs := by
  generalize len : xs.length = n
  induction n using Nat.strongRecOn generalizing xs with
  | ind n ih =>
    by_cases found : ∃ x ∈ xs, p x = true
    · obtain ⟨sep, member, isSep⟩ := found
      obtain ⟨pre, post, rfl⟩ := append_of_mem member
      simp only [length_append, length_cons] at len
      exact cut pre sep post isSep (ih _ (by omega) pre rfl) (ih _ (by omega) post rfl)
    · refine clean xs fun x member => ?_
      cases value : p x with
      | false => rfl
      | true => exact (found ⟨x, member, value⟩).elim

/-- The pieces of a split hold no separator, and only units of the whole. -/
theorem mem_piece_of_splitOnP {xs piece : List α} (member : piece ∈ xs.splitOnP p) {x : α}
    (inPiece : x ∈ piece) : x ∈ xs ∧ p x = false := by
  revert member
  induction xs using splitOnP_induction (p := p) with
  | clean xs none =>
    intro member
    rw [splitOnP_eq_singleton none, mem_singleton] at member
    subst member
    exact ⟨inPiece, none x inPiece⟩
  | cut pre sep post isSep ihPre ihPost =>
    intro member
    rw [splitOnP_append_cons pre post isSep, mem_append] at member
    rcases member with inPre | inPost
    · exact ⟨mem_append_left _ (ihPre inPre).1, (ihPre inPre).2⟩
    · exact ⟨mem_append_right _ (mem_cons_of_mem _ (ihPost inPost).1), (ihPost inPost).2⟩

/-- A split looks at its separators only on the units of the list. -/
theorem splitOnP_congr {q : α → Bool} {xs : List α} (agree : ∀ x ∈ xs, p x = q x) :
    xs.splitOnP p = xs.splitOnP q := by
  induction xs with
  | nil => rw [splitOnP_nil, splitOnP_nil]
  | cons x xs ih =>
    rw [splitOnP_cons_eq_if_modifyHead, splitOnP_cons_eq_if_modifyHead,
      agree x mem_cons_self, ih fun y member => agree y (mem_cons_of_mem _ member)]

end Split

/-- A string is well formed exactly when all pieces between separators are, when no
separator is a surrogate. -/
theorem wellFormed_eq_all_splitOnP {p : CodeUnit → Bool}
    (plain : ∀ u, p u = true → isSurrogate u = false) (s : Text) :
    wellFormed s = (s.splitOnP p).all wellFormed := by
  induction s using splitOnP_induction (p := p) with
  | clean xs none =>
    rw [splitOnP_eq_singleton none, all_cons, all_nil, Bool.and_true]
  | cut pre sep post isSep ihPre ihPost =>
    rw [splitOnP_append_cons pre post isSep, all_append, ← ihPre, ← ihPost,
      wellFormed_append_cons (plain sep isSep)]

end Utf16
