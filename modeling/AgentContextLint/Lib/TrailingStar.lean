import AgentContextLint.Lib.RowMatching
import Mathlib.Data.List.Forall2

/-!
# Trailing stars and lengths

A matcher that wants at least one letter behind what its items match can put a star behind
them and ask that the word be longer than the list of items. `lengthTest_exact_iff` says for
which items and which length this is right on every word: the length test and the star
cannot tell where an inner star ends.
-/

namespace RowMatching

open List

variable {α β : Type} {holds : β → α → Prop} {word : List α} {items front back : List (Item β)}

/-- The tests of a pattern, in order. -/
def tests : List (Item β) → List β
  | [] => []
  | .star :: items => tests items
  | .one b :: items => b :: tests items

@[simp] theorem tests_append : tests (front ++ back) = tests front ++ tests back := by
  induction front with
  | nil => rfl
  | cons item front ih => cases item <;> simp [tests, ih]

theorem length_tests_le : (tests items).length ≤ items.length := by
  induction items with
  | nil => exact Nat.le_refl _
  | cons item items ih => cases item <;> simp only [tests, length_cons] <;> omega

theorem length_tests_of_plain (plain : .star ∉ items) : (tests items).length = items.length := by
  induction items with
  | nil => rfl
  | cons item items ih =>
    rw [mem_cons, not_or] at plain
    cases item with
    | star => exact absurd rfl plain.1
    | one b => simp [tests, ih plain.2]

/-! ## Words of a pattern -/

/-- Each test has a letter of its own. -/
theorem Matches.length_tests_le (matched : Matches holds items word) :
    (tests items).length ≤ word.length := by
  induction items generalizing word with
  | nil => exact Nat.zero_le _
  | cons item items ih =>
    cases item with
    | star =>
      obtain ⟨skipped, rest, rfl, behind⟩ := matched
      have fits := ih behind
      rw [tests, length_append]
      omega
    | one b =>
      obtain ⟨x, rest, rfl, -, behind⟩ := matched
      exact Nat.succ_le_succ (ih behind)

theorem Matches.exists_of_mem_tests (matched : Matches holds items word) {b : β}
    (asked : b ∈ tests items) : ∃ x ∈ word, holds b x := by
  induction items generalizing word with
  | nil => cases asked
  | cons item items ih =>
    cases item with
    | star =>
      obtain ⟨skipped, rest, rfl, behind⟩ := matched
      obtain ⟨x, member, passes⟩ := ih behind asked
      exact ⟨x, mem_append_right skipped member, passes⟩
    | one c =>
      obtain ⟨x, rest, rfl, passes, behind⟩ := matched
      rcases mem_cons.mp asked with rfl | asked
      · exact ⟨x, mem_cons_self, passes⟩
      · obtain ⟨y, member, passes⟩ := ih behind asked
        exact ⟨y, mem_cons_of_mem x member, passes⟩

/-- The match in which no star skips anything. -/
theorem matches_of_tests (each : Forall₂ holds (tests items) word) : Matches holds items word := by
  induction items generalizing word with
  | nil => exact forall₂_nil_left_iff.mp each
  | cons item items ih =>
    cases item with
    | star => exact ⟨[], word, rfl, ih each⟩
    | one b =>
      obtain ⟨x, rest, passes, behind, rfl⟩ := forall₂_cons_left_iff.mp each
      exact ⟨x, rest, rfl, passes, ih behind⟩

/-- Without a star every match has the length of the pattern. -/
theorem Matches.length_of_plain (matched : Matches holds items word) (plain : .star ∉ items) :
    word.length = items.length := by
  induction items generalizing word with
  | nil => rw [matched, length_nil, length_nil]
  | cons item items ih =>
    rw [mem_cons, not_or] at plain
    cases item with
    | star => exact absurd rfl plain.1
    | one b =>
      obtain ⟨x, rest, rfl, -, behind⟩ := matched
      rw [length_cons, length_cons, ih behind plain.2]

theorem forall₂_of_forall {bs : List β} (length : bs.length = word.length)
    (all : ∀ b ∈ bs, ∀ x ∈ word, holds b x) : Forall₂ holds bs word := by
  rw [forall₂_iff_zip]
  exact ⟨length, fun paired => all _ (of_mem_zip paired).1 _ (of_mem_zip paired).2⟩

theorem forall₂_map {bs : List β} {f : β → α} (each : ∀ b ∈ bs, holds b (f b)) :
    Forall₂ holds bs (bs.map f) :=
  forall₂_map_right_iff.mpr (forall₂_same.mpr each)

/-! ## Shorter matches -/

/-- Behind a star only tests that every letter passes: then the star need not skip anything. -/
theorem Matches.take_of_all (plain : .star ∉ front) (all : ∀ b ∈ tests back, ∀ x ∈ word, holds b x)
    (matched : Matches holds (front ++ .star :: back) word) :
    Matches holds (front ++ .star :: back) (word.take (tests (front ++ .star :: back)).length) := by
  obtain ⟨above, below, rfl, ahead, skipped, rest, rfl, behind⟩ := matches_append.mp matched
  have fits := behind.length_tests_le
  rw [tests_append, length_append, length_tests_of_plain plain, ← ahead.length_of_plain plain,
    take_length_add_append]
  refine matches_append.mpr ⟨above, _, rfl, ahead, [], _, rfl, matches_of_tests ?_⟩
  refine forall₂_of_forall ?_ fun b asked x member => all b asked x ?_
  · rw [length_take, length_append, tests]
    omega
  · exact mem_append_right above (mem_of_mem_take member)

/-- A letter that fails the test `b` and passes the tests between the star and `b` fills the
word, so that `b` can only be met at its one place and no proper prefix is a match. -/
theorem minimal_match {before behind : List (Item β)} {b : β} {other x : α} {ahead last : List α}
    {r : Nat} (fills : ∀ c ∈ tests before, holds c other) (fails : ¬ holds b other) (passes : holds b x)
    (first : Forall₂ holds (tests front) ahead) (rest : Forall₂ holds (tests behind) last)
    (made : ahead ++ (replicate (r + (tests before).length) other ++ x :: last) = word) :
    Matches holds (front ++ .star :: (before ++ .one b :: behind)) word ∧
      ∀ k < word.length, ¬ Matches holds (front ++ .star :: (before ++ .one b :: behind))
        (word.take k) := by
  subst made
  constructor
  · refine matches_append.mpr ⟨ahead, _, rfl, matches_of_tests first, replicate r other,
      replicate (tests before).length other ++ x :: last, ?_, ?_⟩
    · rw [← append_assoc, replicate_append_replicate]
    · refine matches_append.mpr ⟨_, _, rfl, matches_of_tests ?_, x, last, rfl, passes,
        matches_of_tests rest⟩
      exact forall₂_of_forall length_replicate.symm fun c asked y member =>
        eq_of_mem_replicate member ▸ fills c asked
  · intro k proper matched
    obtain ⟨above, _, split, left, skipped, _, rfl, inner⟩ := matches_append.mp matched
    obtain ⟨filler, _, rfl, -, y, below, rfl, named, right⟩ := matches_append.mp inner
    have room := right.length_tests_le
    have lengths := congrArg List.length split
    have leftRoom := left.length_tests_le
    rw [first.length_eq] at leftRoom
    rw [rest.length_eq] at room
    simp only [length_append, length_take, length_cons, length_replicate] at lengths proper
    -- the letter `b` was met at lies in the filling
    have here := congrArg (·[above.length + (skipped.length + filler.length)]?) split
    rw [getElem?_take_of_lt (by omega), getElem?_append_right (by omega),
      getElem?_append_left (by rw [length_replicate]; omega), getElem?_append_right (by omega),
      ← append_assoc, getElem?_append_right (by simp),
      getElem?_replicate_of_lt (by omega)] at here
    simp only [length_append, Nat.add_sub_cancel_left, Nat.sub_self, getElem?_cons_zero] at here
    exact fails (Option.some.inj here ▸ named)

theorem exists_first_failing {letter : α → Prop}
    (some : ∃ b ∈ tests items, ¬ ∀ x, letter x → holds b x) :
    ∃ before b behind, items = before ++ .one b :: behind ∧
      (∀ c ∈ tests before, ∀ x, letter x → holds c x) ∧ ¬ ∀ x, letter x → holds b x := by
  induction items with
  | nil => simp [tests] at some
  | cons item items ih =>
    cases item with
    | star =>
      obtain ⟨before, b, behind, rfl, all, fails⟩ := ih some
      exact ⟨.star :: before, b, behind, rfl, all, fails⟩
    | one c =>
      by_cases every : ∀ x, letter x → holds c x
      · have later : ∃ b ∈ tests items, ¬ ∀ x, letter x → holds b x := by
          obtain ⟨b, asked, fails⟩ := some
          rcases mem_cons.mp asked with rfl | asked
          · exact absurd every fails
          · exact ⟨b, asked, fails⟩
        obtain ⟨before, b, behind, rfl, all, fails⟩ := ih later
        exact ⟨.one c :: before, b, behind, rfl, forall_mem_cons.mpr ⟨every, all⟩, fails⟩
      · exact ⟨[], c, items, rfl, by simp [tests], every⟩

/-! ## The length test -/

/-- On which lengths a star behind `items` and the test that the word is longer than `items`
ask for a proper prefix that `items` match: without a star among the items; where the word has
no room for their tests, or one of them has no letter; and where the length test passes and
every letter passes every test behind a star. -/
def LengthTestExact (holds : β → α → Prop) (letter : α → Prop) (items : List (Item β)) (n : Nat) :
    Prop :=
  .star ∉ items ∨ n ≤ (tests items).length ∨
    (∃ b ∈ tests items, ∀ x, letter x → ¬ holds b x) ∨
    items.length < n ∧ ∀ front back, items = front ++ .star :: back →
      ∀ b ∈ tests back, ∀ x, letter x → holds b x

theorem matches_append_star_iff_take : Matches holds (items ++ [.star]) word ↔
      Matches holds items word ∨ ∃ k < word.length, Matches holds items (word.take k) := by
  rw [matches_append_star]
  constructor
  · rintro ⟨above, below, rfl, matched⟩
    rcases below with _ | ⟨x, below⟩
    · exact .inl (by rwa [append_nil])
    · refine .inr ⟨above.length, by simp, ?_⟩
      rwa [take_left]
  · rintro (whole | ⟨k, -, matched⟩)
    · exact ⟨word, [], (append_nil word).symm, whole⟩
    · exact ⟨word.take k, word.drop k, (take_append_drop k word).symm, matched⟩

section Exact

variable {letter : α → Prop} {n : Nat}

theorem LengthTestExact.agrees (exact : LengthTestExact holds letter items n)
    (length : word.length = n) (letters : ∀ x ∈ word, letter x) :
    items.length < n ∧ Matches holds (items ++ [.star]) word ↔
      ∃ k < n, Matches holds items (word.take k) := by
  subst length
  rw [matches_append_star_iff_take]
  have room : ∀ k, Matches holds items (word.take k) → (tests items).length ≤ k := by
    intro k matched
    have fits := matched.length_tests_le
    rw [length_take] at fits
    omega
  rcases exact with plain | short | ⟨b, asked, none⟩ | ⟨long, all⟩
  · have only : ∀ k, k ≤ word.length → Matches holds items (word.take k) → k = items.length := by
      intro k within matched
      rw [← matched.length_of_plain plain, length_take, Nat.min_eq_left within]
    constructor
    · rintro ⟨long, whole | proper⟩
      · exact absurd (whole.length_of_plain plain) (by omega)
      · exact proper
    · rintro ⟨k, proper, matched⟩
      have := only k (Nat.le_of_lt proper) matched
      exact ⟨by omega, .inr ⟨k, proper, matched⟩⟩
  · have bound : (tests items).length ≤ items.length := length_tests_le
    constructor
    · rintro ⟨long, -⟩
      omega
    · rintro ⟨k, proper, matched⟩
      have := room k matched
      omega
  · have never : ∀ k, ¬ Matches holds items (word.take k) := by
      intro k matched
      obtain ⟨x, member, passes⟩ := matched.exists_of_mem_tests asked
      exact none x (letters x (mem_of_mem_take member)) passes
    have whole := never word.length
    rw [take_length] at whole
    simp [whole, never]
  · refine ⟨fun ⟨_, matched⟩ => matched.elim (fun whole => ?_) id, fun proper => ⟨long, .inr proper⟩⟩
    by_cases starred : .star ∈ items
    · obtain ⟨front, back, rfl, plain⟩ := eq_append_cons_of_mem starred
      exact ⟨_, Nat.lt_of_le_of_lt length_tests_le long, Matches.take_of_all plain
        (fun b asked x member => all front back rfl b asked x (letters x member)) whole⟩
    · exact absurd (whole.length_of_plain starred) (by omega)

/-- Outside that, some word of the length shows the difference. -/
theorem LengthTestExact.of_agrees {y : α} (isLetter : letter y)
    (agrees : ∀ word : List α, word.length = n → (∀ x ∈ word, letter x) →
      (items.length < n ∧ Matches holds (items ++ [.star]) word ↔
        ∃ k < n, Matches holds items (word.take k))) : LengthTestExact holds letter items n := by
  unfold LengthTestExact
  by_contra refuted
  push Not at refuted
  obtain ⟨-, room, each, fails⟩ := refuted
  have : Nonempty α := ⟨y⟩
  choose! f letters passes using each
  have mapped : ∀ bs : List β, (∀ b ∈ bs, b ∈ tests items) → ∀ x ∈ bs.map f, letter x :=
    fun bs asked => forall_mem_map.mpr fun b member => letters b (asked b member)
  rcases Nat.lt_or_ge items.length n with long | short
  · obtain ⟨front, back, rfl, b, asked, x, isLetter, fails⟩ := fails long
    have failing : ∃ b ∈ tests back, ¬ ∀ x, letter x → holds b x :=
      ⟨b, asked, fun all => fails (all x isLetter)⟩
    obtain ⟨before, b, behind, rfl, fills, fails⟩ := exists_first_failing failing
    push Not at fails
    obtain ⟨other, isOther, fails⟩ := fails
    simp only [tests_append, tests, mem_append, mem_cons, length_append, length_cons]
      at letters passes mapped room
    generalize made : (tests front).map f ++ (replicate
      (n - ((tests front).length + ((tests before).length + ((tests behind).length + 1))) +
        (tests before).length) other ++ f b :: (tests behind).map f) = word
    obtain ⟨whole, proper⟩ := minimal_match (fun c asked => fills c asked other isOther) fails
      (passes b (.inr (.inr (.inl rfl)))) (forall₂_map fun c asked => passes c (.inl asked))
      (forall₂_map fun c asked => passes c (.inr (.inr (.inr asked)))) made
    have length : word.length = n := by
      rw [← made]
      simp only [length_append, length_cons, length_replicate, length_map]
      omega
    have isWord : ∀ z ∈ word, letter z := by
      simp only [← made, forall_mem_append, forall_mem_cons, forall_mem_replicate]
      exact ⟨mapped _ fun c => .inl, .inr isOther, letters b (.inr (.inr (.inl rfl))),
        mapped _ fun c asked => .inr (.inr (.inr asked))⟩
    obtain ⟨k, within, matched⟩ := (agrees word length isWord).mp
      ⟨long, matches_append_star_iff_take.mpr (.inl whole)⟩
    exact proper k (length.symm ▸ within) matched
  · have wrong := (agrees ((tests items).map f ++ replicate (n - (tests items).length) y)
      (by simp; omega) (forall_mem_append.mpr ⟨mapped _ fun _ => id, fun z member =>
        eq_of_mem_replicate member ▸ isLetter⟩)).mpr
      ⟨(tests items).length, by omega, by
        rw [take_left' (length_map _)]
        exact matches_of_tests (forall₂_map passes)⟩
    omega

/-- The length test is right on every word of a length exactly under `LengthTestExact`. -/
theorem lengthTest_exact_iff {y : α} (isLetter : letter y) :
    (∀ word : List α, word.length = n → (∀ x ∈ word, letter x) →
      (items.length < n ∧ Matches holds (items ++ [.star]) word ↔
        ∃ k < n, Matches holds items (word.take k))) ↔ LengthTestExact holds letter items n :=
  ⟨.of_agrees isLetter, fun exact _ length letters => exact.agrees length letters⟩

end Exact

end RowMatching
