import Mathlib.Computability.Language

/-!
# Prioritized patterns

Regular expressions over any alphabet, with the order in which a backtracking matcher tries
its ways: `ends` lists what each way of matching leaves of a text, the first one first.
Repetition is greedy, and an iteration that matches nothing is no iteration.

The order decides what is matched; what can be matched is the `language` (`mem_ends`). A unit
is a test on one symbol, so that a class of symbols needs no sum over its members.
-/

/-- A pattern over the alphabet `α`. -/
inductive Pattern (α : Type) where
  | empty
  | unit (accepts : α → Bool)
  | seq (first second : Pattern α)
  | either (first second : Pattern α)
  | star (body : Pattern α)

namespace Pattern

open List

variable {α : Type} {p : Pattern α} {word : List α} {body : Pattern α} {first second : Pattern α}

/-! ## Matching -/

/-- Greedy repetition of `step`, of at most `fuel` iterations that each consume something. -/
def starEnds (step : List α → List (List α)) : Nat → List α → List (List α)
  | 0, text => [text]
  | fuel + 1, text =>
    ((step text).filter fun rest => rest.length < text.length).flatMap (starEnds step fuel) ++
      [text]

/-- What the ways of matching at the start of a text leave of it. -/
def ends : Pattern α → List α → List (List α)
  | empty, text => [text]
  | unit _, [] => []
  | unit accepts, c :: rest => if accepts c then [rest] else []
  | seq first second, text => (first.ends text).flatMap second.ends
  | either first second, text => first.ends text ++ second.ends text
  | star body, text => starEnds body.ends text.length text

/-- The text that the first way matches at the start. -/
def matched (p : Pattern α) (text : List α) : Option (List α) :=
  (p.ends text).head?.map fun rest => text.take (text.length - rest.length)

def occursIn (p : Pattern α) (text : List α) : Bool :=
  text.tails.any fun rest => !(p.ends rest).isEmpty

def matchesAll (p : Pattern α) (text : List α) : Bool :=
  (p.ends text).any fun rest => rest.isEmpty

/-! ## Derived patterns -/

/-- The symbols of a text in order, compared by `same`. -/
def text (same : α → α → Bool) : List α → Pattern α
  | [] => empty
  | c :: rest => seq (unit (same c)) (text same rest)

def optional (p : Pattern α) : Pattern α := either p empty

def plus (p : Pattern α) : Pattern α := seq p (star p)

def times (p : Pattern α) : Nat → Pattern α
  | 0 => empty
  | n + 1 => seq p (times p n)

def atLeast (p : Pattern α) (n : Nat) : Pattern α := seq (times p n) (star p)

/-- The first of several patterns that leads to a match. -/
def anyOf : List (Pattern α) → Pattern α
  | [] => unit fun _ => false
  | [p] => p
  | p :: rest => either p (anyOf rest)

/-! ## The language of a pattern -/

/-- The texts a pattern matches. -/
def language : Pattern α → Language α
  | empty => 1
  | unit accepts => {word | ∃ c, accepts c = true ∧ word = [c]}
  | seq first second => first.language * second.language
  | either first second => first.language + second.language
  | star body => KStar.kstar body.language

@[simp] theorem mem_language_empty : word ∈ (empty : Pattern α).language ↔ word = [] :=
  Language.mem_one word

@[simp] theorem mem_language_unit {accepts : α → Bool} :
    word ∈ (unit accepts).language ↔ ∃ c, accepts c = true ∧ word = [c] := Iff.rfl

theorem mem_language_seq : word ∈ (seq first second).language ↔
      ∃ front ∈ first.language, ∃ back ∈ second.language, front ++ back = word :=
  Language.mem_mul

theorem mem_language_either :
    word ∈ (either first second).language ↔ word ∈ first.language ∨ word ∈ second.language :=
  Language.mem_add _ _ word

/-- A repetition is empty, or an iteration that consumes something and a repetition. -/
theorem mem_language_star : word ∈ (star body).language ↔
      word = [] ∨ ∃ front ∈ body.language, ∃ back ∈ (star body).language,
        front ≠ [] ∧ front ++ back = word := by
  constructor
  · intro member
    obtain ⟨pieces, rfl, each⟩ := Language.mem_kstar_iff_exists_nonempty.mp member
    cases pieces with
    | nil => exact .inl rfl
    | cons front rest =>
      have here := each front mem_cons_self
      refine .inr ⟨front, here.1, rest.flatten, ?_, here.2, rfl⟩
      exact Language.mem_kstar.mpr
        ⟨rest, rfl, fun piece later => (each piece (mem_cons_of_mem _ later)).1⟩
  · rintro (rfl | ⟨front, here, back, later, -, rfl⟩)
    · exact Language.nil_mem_kstar _
    · obtain ⟨pieces, rfl, each⟩ := Language.mem_kstar.mp later
      refine Language.mem_kstar.mpr ⟨front :: pieces, rfl, ?_⟩
      intro piece member
      rcases mem_cons.mp member with rfl | inRest
      · exact here
      · exact each piece inRest

/-! ## What is matched -/

variable {text rest : List α}

/-- Repetition leaves what the repeated language leaves, when there is fuel for all of it. -/
theorem mem_starEnds
    (ih : ∀ text rest : List α, rest ∈ body.ends text ↔ ∃ word ∈ body.language, word ++ rest = text)
    {fuel : Nat} (enough : text.length ≤ fuel) :
    rest ∈ starEnds body.ends fuel text ↔ ∃ word ∈ (star body).language, word ++ rest = text := by
  induction fuel generalizing text with
  | zero =>
    rw [length_eq_zero_iff.mp (Nat.le_zero.mp enough)]
    rw [starEnds, mem_singleton]
    constructor
    · rintro rfl
      exact ⟨[], Language.nil_mem_kstar _, rfl⟩
    · rintro ⟨word, -, eq⟩
      exact (append_eq_nil_iff.mp eq).2
  | succ fuel more =>
    rw [starEnds, mem_append, mem_singleton, mem_flatMap]
    constructor
    · rintro (⟨after, first, later⟩ | rfl)
      · obtain ⟨once, shorter⟩ := mem_filter.mp first
        have shorter := of_decide_eq_true shorter
        obtain ⟨front, inBody, rfl⟩ := (ih text after).mp once
        obtain ⟨back, inStar, rfl⟩ := (more (by omega)).mp later
        refine ⟨front ++ back, ?_, append_assoc ..⟩
        refine mem_language_star.mpr (.inr ⟨front, inBody, back, inStar, ?_, rfl⟩)
        rintro rfl
        exact absurd shorter (lt_irrefl _)
      · exact ⟨[], Language.nil_mem_kstar _, rfl⟩
    · rintro ⟨word, inStar, rfl⟩
      rcases mem_language_star.mp inStar with rfl | ⟨front, inBody, back, later, consumes, rfl⟩
      · exact .inr rfl
      · have positive := length_pos_iff.mpr consumes
        simp only [length_append] at enough
        refine .inl ⟨back ++ rest, mem_filter.mpr ⟨?_, ?_⟩, ?_⟩
        · exact (ih _ _).mpr ⟨front, inBody, (append_assoc ..).symm⟩
        · refine decide_eq_true ?_
          simp only [length_append]
          omega
        · refine (more ?_).mpr ⟨back, later, rfl⟩
          simp only [length_append]
          omega

/-- The ways of matching leave exactly what is left behind a word of the language. -/
theorem mem_ends : rest ∈ p.ends text ↔ ∃ word ∈ p.language, word ++ rest = text := by
  induction p generalizing text rest with
  | empty => simp [ends, eq_comm]
  | unit accepts =>
    cases text with
    | nil => simp [ends]
    | cons c tail =>
      by_cases taken : accepts c
      · simp only [ends, if_pos taken, mem_singleton, mem_language_unit]
        constructor
        · rintro rfl
          exact ⟨[c], ⟨c, taken, rfl⟩, rfl⟩
        · rintro ⟨_, ⟨d, -, rfl⟩, eq⟩
          exact (cons.inj eq).2
      · simp only [ends, if_neg taken, not_mem_nil, mem_language_unit, false_iff]
        rintro ⟨_, ⟨d, accepted, rfl⟩, eq⟩
        exact taken ((cons.inj eq).1 ▸ accepted)
  | seq first second ihFirst ihSecond =>
    simp only [ends, mem_flatMap, ihFirst, ihSecond, mem_language_seq]
    constructor
    · rintro ⟨_, ⟨front, inFirst, rfl⟩, back, inSecond, rfl⟩
      exact ⟨front ++ back, ⟨front, inFirst, back, inSecond, rfl⟩, append_assoc ..⟩
    · rintro ⟨_, ⟨front, inFirst, back, inSecond, rfl⟩, rfl⟩
      exact ⟨back ++ rest, ⟨front, inFirst, (append_assoc ..).symm⟩, back, inSecond, rfl⟩
  | either first second ihFirst ihSecond =>
    simp only [ends, mem_append, ihFirst, ihSecond, mem_language_either]
    constructor
    · rintro (⟨word, member, eq⟩ | ⟨word, member, eq⟩)
      · exact ⟨word, .inl member, eq⟩
      · exact ⟨word, .inr member, eq⟩
    · rintro ⟨word, member | member, eq⟩
      · exact .inl ⟨word, member, eq⟩
      · exact .inr ⟨word, member, eq⟩
  | star body ih => exact mem_starEnds (fun _ _ => ih) (le_refl text.length)

/-- What is matched is a word of the language at the start of the text. -/
theorem matched_eq_some {word : List α} (found : p.matched text = some word) :
    word ∈ p.language ∧ word <+: text := by
  rw [matched, Option.map_eq_some_iff] at found
  obtain ⟨rest, first, rfl⟩ := found
  obtain ⟨front, inLanguage, rfl⟩ := mem_ends.mp (mem_of_mem_head? first)
  rw [length_append, Nat.add_sub_cancel, take_left]
  exact ⟨inLanguage, prefix_append ..⟩

theorem matchesAll_eq_true : p.matchesAll text = true ↔ text ∈ p.language := by
  rw [matchesAll, any_eq_true]
  constructor
  · rintro ⟨rest, member, isEmpty⟩
    obtain ⟨word, inLanguage, eq⟩ := mem_ends.mp member
    rw [isEmpty_iff.mp isEmpty, append_nil] at eq
    exact eq ▸ inLanguage
  · intro inLanguage
    exact ⟨[], mem_ends.mpr ⟨text, inLanguage, append_nil text⟩, rfl⟩

theorem occursIn_of_part (member : word ∈ p.language) (within : word <:+: text) :
    p.occursIn text = true := by
  obtain ⟨ahead, rest, rfl⟩ := within
  refine any_eq_true.mpr ⟨word ++ rest, (mem_tails _ _).mpr ⟨ahead, (append_assoc ..).symm⟩, ?_⟩
  have found : rest ∈ p.ends (word ++ rest) := mem_ends.mpr ⟨word, member, rfl⟩
  simp [ne_nil_of_mem found]

/-- A repeated unit takes all of a word that it accepts. -/
theorem head?_starEnds_unit {accepts : α → Bool} (all : ∀ c ∈ word, accepts c = true) {fuel : Nat}
    (enough : word.length ≤ fuel) : (starEnds (unit accepts).ends fuel word).head? = some [] := by
  induction word generalizing fuel with
  | nil => cases fuel <;> rfl
  | cons c word ih =>
    obtain ⟨fuel, rfl⟩ := Nat.exists_eq_add_of_le' (Nat.le_of_add_left_le enough)
    obtain ⟨taken, others⟩ := forall_mem_cons.mp all
    simp [starEnds, ends, taken, head?_append, ih others (Nat.le_of_succ_le_succ enough)]

theorem head?_ends_plus_unit {accepts : α → Bool} (nonempty : word ≠ [])
    (all : ∀ c ∈ word, accepts c = true) : ((plus (unit accepts)).ends word).head? = some [] := by
  obtain ⟨c, word, rfl⟩ := exists_cons_of_ne_nil nonempty
  obtain ⟨taken, others⟩ := forall_mem_cons.mp all
  simp only [plus, ends, if_pos taken, flatMap_singleton]
  exact head?_starEnds_unit others (le_refl _)

/-! ## Nonempty matches -/

/-- The pattern has a way to match without consuming anything. -/
def nullable : Pattern α → Bool
  | empty => true
  | unit _ => false
  | seq first second => first.nullable && second.nullable
  | either first second => first.nullable || second.nullable
  | star _ => true

theorem nullable_of_nil_mem (member : [] ∈ p.language) : p.nullable = true := by
  induction p with
  | empty => rfl
  | unit accepts =>
    obtain ⟨c, -, eq⟩ := member
    cases eq
  | seq first second ihFirst ihSecond =>
    obtain ⟨front, inFirst, back, inSecond, eq⟩ := mem_language_seq.mp member
    obtain ⟨rfl, rfl⟩ := append_eq_nil_iff.mp eq
    rw [nullable, ihFirst inFirst, ihSecond inSecond]
    rfl
  | either first second ihFirst ihSecond =>
    rw [nullable, Bool.or_eq_true]
    exact (mem_language_either.mp member).imp ihFirst ihSecond
  | star body => rfl

theorem matched_ne_nil {word : List α} (consumes : p.nullable = false)
    (found : p.matched text = some word) : word ≠ [] := by
  rintro rfl
  have nullable := nullable_of_nil_mem (matched_eq_some found).1
  rw [consumes] at nullable
  cases nullable

/-! ## Symbols a pattern avoids -/

def avoids (c : α) : Pattern α → Bool
  | empty => true
  | unit accepts => !accepts c
  | seq first second => first.avoids c && second.avoids c
  | either first second => first.avoids c && second.avoids c
  | star body => body.avoids c

theorem notMem_of_avoids {c : α} (avoiding : p.avoids c = true)
    (member : word ∈ p.language) : c ∉ word := by
  induction p generalizing word with
  | empty =>
    rw [mem_language_empty.mp member]
    exact not_mem_nil
  | unit accepts =>
    obtain ⟨d, accepted, rfl⟩ := member
    intro inWord
    rw [mem_singleton.mp inWord] at avoiding
    rw [avoids, accepted] at avoiding
    cases avoiding
  | seq first second ihFirst ihSecond =>
    obtain ⟨one, two⟩ := (Bool.and_eq_true ..).mp avoiding
    obtain ⟨front, inFirst, back, inSecond, rfl⟩ := mem_language_seq.mp member
    rw [mem_append]
    exact not_or_intro (ihFirst one inFirst) (ihSecond two inSecond)
  | either first second ihFirst ihSecond =>
    obtain ⟨one, two⟩ := (Bool.and_eq_true ..).mp avoiding
    rcases mem_language_either.mp member with inFirst | inSecond
    · exact ihFirst one inFirst
    · exact ihSecond two inSecond
  | star body ih =>
    obtain ⟨pieces, rfl, each⟩ := Language.mem_kstar.mp member
    intro inWord
    obtain ⟨piece, listed, inPiece⟩ := mem_flatten.mp inWord
    exact ih avoiding (each piece listed) inPiece

/-! ## Patterns under a map -/

/-- The pattern over symbols that are read through a map. -/
def comap {β : Type} (f : β → α) : Pattern α → Pattern β
  | empty => empty
  | unit accepts => unit fun b => accepts (f b)
  | seq first second => seq (first.comap f) (second.comap f)
  | either first second => either (first.comap f) (second.comap f)
  | star body => star (body.comap f)

section Comap

variable {β : Type} {f : β → α}

theorem nullable_comap (p : Pattern α) : (p.comap f).nullable = p.nullable := by
  induction p with
  | empty => rfl
  | unit accepts => rfl
  | seq first second ihFirst ihSecond => rw [comap, nullable, nullable, ihFirst, ihSecond]
  | either first second ihFirst ihSecond => rw [comap, nullable, nullable, ihFirst, ihSecond]
  | star body ih => rfl

theorem starEnds_comap {step : List β → List (List β)} {mapped : List α → List (List α)}
    (commutes : ∀ text, (step text).map (map f) = mapped (text.map f)) (fuel : Nat)
    (text : List β) :
    (starEnds step fuel text).map (map f) = starEnds mapped fuel (text.map f) := by
  induction fuel generalizing text with
  | zero => rfl
  | succ fuel ih =>
    rw [starEnds, starEnds, ← commutes, filter_map, flatMap_map, map_append, map_flatMap]
    congr 1
    have same : ((fun rest : List α => decide (rest.length < (text.map f).length)) ∘ map f) =
        fun rest => decide (rest.length < text.length) := by
      funext rest
      rw [Function.comp_apply, length_map, length_map]
    rw [same]
    exact flatMap_congr fun rest _ => ih rest

/-- Matching reads the symbols through the map. -/
theorem ends_comap (p : Pattern α) (text : List β) :
    ((p.comap f).ends text).map (map f) = p.ends (text.map f) := by
  induction p generalizing text with
  | empty => rfl
  | unit accepts =>
    cases text with
    | nil => rfl
    | cons b rest =>
      rw [map_cons, comap, ends, ends]
      split_ifs <;> rfl
  | seq first second ihFirst ihSecond =>
    rw [comap, ends, ends, ← ihFirst, flatMap_map, map_flatMap]
    exact flatMap_congr fun rest _ => ihSecond rest
  | either first second ihFirst ihSecond =>
    rw [comap, ends, ends, map_append, ihFirst, ihSecond]
  | star body ih =>
    rw [comap, ends, ends, starEnds_comap ih, length_map]

theorem mem_language_comap {p : Pattern α} {word : List β} :
    word ∈ (p.comap f).language ↔ word.map f ∈ p.language := by
  rw [← matchesAll_eq_true, ← matchesAll_eq_true, matchesAll, matchesAll, ← ends_comap, any_map]
  have same : (isEmpty ∘ map f) = (isEmpty : List β → Bool) := by
    funext rest
    cases rest <;> rfl
  show _ ↔ ((p.comap f).ends word).any (isEmpty ∘ map f) = true
  rw [same]

end Comap

end Pattern
