import AgentContextLint.Resolver.ProfileGlobDialects

/-!
# The readings of a pattern

The dialects leave open whether case matters and whether a wildcard stands for a leading dot, so that a
pattern has four readings. The tables of a match decide the language of one reading (`exists_pathMatch`).
A path in the strictest reading is in every other (`Denotes.mono`), so that the first table answers for
all of them, and a match in some readings only is left open (`matchDocumentedSubset_answers`).
-/

namespace AgentContextLint.ProfileGlobDialects

open Utf16 Metered RunTable
open List (map_cons map_id map_map)

variable {dotWildcards foldCase : Bool} {pattern path value : Text} {dialect : ProfileGlobDialect}
  (unit : CodeUnit)

/-! ## Languages -/

def ScalarsMatch (pattern value : List Nat) : Prop :=
  Matches (fun test scalar => scalarTest test scalar = true) (pattern.map scalarItem) value

/-- A segment that starts with a dot is for a pattern that does so too, unless wildcards stand for dots. -/
def SegmentDenotes (dotWildcards foldCase : Bool) (pattern value : Text) : Prop :=
  (dotWildcards = false → startsWithDot value = true →
    (codePoints pattern).head? ≠ some 0x2a ∧ (codePoints pattern).head? ≠ some 0x3f) ∧
  ScalarsMatch (codePoints (foldIf foldCase pattern)) (codePoints (foldIf foldCase value))

def SegmentHolds (dotWildcards foldCase : Bool) : SegmentTest → Text → Prop
  | .globstar, value => dotWildcards = false → startsWithDot value = false
  | .segment pattern, value => SegmentDenotes dotWildcards foldCase pattern value

/-- The path is in the language of a reading of the pattern. -/
def Denotes (dotWildcards foldCase : Bool) (pattern path : Text) : Prop :=
  Matches (SegmentHolds dotWildcards foldCase) ((RepositoryPath.pathSegments pattern).map segmentItem)
    (pathSegmentsOf path)

/-! ## Folding -/

def foldScalar (scalar : Nat) : Nat := if 0x41 ≤ scalar ∧ scalar ≤ 0x5a then scalar + 0x20 else scalar

def foldUnit (unit : CodeUnit) : CodeUnit :=
  if 0x41 ≤ unit.toNat ∧ unit.toNat ≤ 0x5a then unit + 0x20 else unit

theorem toNat_foldUnit : (foldUnit unit).toNat = foldScalar unit.toNat := by
  unfold foldUnit foldScalar
  split_ifs with letter
  · rw [UInt16.toNat_add, Nat.mod_eq_of_lt]
    · rfl
    · have : (0x20 : CodeUnit).toNat = 0x20 := rfl
      omega
  · rfl

theorem isHighSurrogate_foldUnit : isHighSurrogate (foldUnit unit) = isHighSurrogate unit := by
  simp only [isHighSurrogate, toNat_foldUnit, foldScalar]
  grind

theorem isLowSurrogate_foldUnit : isLowSurrogate (foldUnit unit) = isLowSurrogate unit := by
  simp only [isLowSurrogate, toNat_foldUnit, foldScalar]
  grind

theorem codePoints_asciiFold (value : Text) :
    codePoints (asciiFold value) = (codePoints value).map foldScalar := by
  have units : ∀ value : Text, asciiFold value = value.map foldUnit := fun _ => rfl
  rw [units]
  induction value using codePoints.induct with
  | case1 => rfl
  | case2 u => simp [codePoints, toNat_foldUnit]
  | case3 u v rest pair ih =>
    have bounds := pair
    simp only [isHighSurrogate, isLowSurrogate, Bool.and_eq_true, decide_eq_true_eq] at bounds
    have same : foldUnit u = u ∧ foldUnit v = v := ⟨if_neg (by omega), if_neg (by omega)⟩
    rw [map_cons, map_cons, same.1, same.2, codePoints, if_pos pair, codePoints, if_pos pair, ih,
      map_cons, foldScalar, if_neg (by omega)]
  | case4 u v rest pair ih =>
    rw [map_cons] at ih
    rw [map_cons, map_cons, codePoints, isHighSurrogate_foldUnit, isLowSurrogate_foldUnit,
      if_neg pair, ih, codePoints, if_neg pair, map_cons, toNat_foldUnit]

theorem foldScalar_eq_iff {sign scalar : Nat} (isSign : sign = 0x2a ∨ sign = 0x3f) :
    foldScalar scalar = sign ↔ scalar = sign := by
  unfold foldScalar
  split_ifs <;> omega

theorem head?_codePoints_foldIf {sign : Nat} (isSign : sign = 0x2a ∨ sign = 0x3f) :
    (codePoints (foldIf foldCase pattern)).head? = some sign ↔ (codePoints pattern).head? = some sign := by
  cases foldCase with
  | false => rfl
  | true =>
    rw [foldIf, if_pos rfl, codePoints_asciiFold, List.head?_map, Option.map_eq_some_iff]
    simp only [foldScalar_eq_iff isSign, exists_eq_right]

def foldTest : ScalarTest → ScalarTest
  | .any => .any
  | .literal scalar => .literal (foldScalar scalar)

theorem scalarItem_foldScalar : scalarItem ∘ foldScalar = Item.map foldTest ∘ scalarItem := by
  funext scalar
  simp only [Function.comp, scalarItem, foldScalar_eq_iff (.inl rfl), foldScalar_eq_iff (.inr rfl)]
  split_ifs <;> rfl

theorem ScalarsMatch.fold (found : ScalarsMatch (codePoints pattern) (codePoints value)) :
    ScalarsMatch (codePoints (foldIf foldCase pattern)) (codePoints (foldIf foldCase value)) := by
  cases foldCase with
  | false => exact found
  | true =>
    rw [foldIf, if_pos rfl, foldIf, if_pos rfl, codePoints_asciiFold, codePoints_asciiFold, ScalarsMatch,
      map_map, scalarItem_foldScalar, ← map_map]
    refine found.map foldTest foldScalar fun test scalar pass => ?_
    cases test with
    | any => rfl
    | literal expected => exact beq_iff_eq.mpr (congrArg foldScalar (beq_iff_eq.mp pass))

theorem SegmentDenotes.mono (found : SegmentDenotes false false pattern value) :
    SegmentDenotes dotWildcards foldCase pattern value :=
  ⟨fun _ => found.1 rfl, found.2.fold⟩

/-- What the strictest reading matches, every reading matches. -/
theorem Denotes.mono (found : Denotes false false pattern path) :
    Denotes dotWildcards foldCase pattern path := by
  have more : Matches (SegmentHolds dotWildcards foldCase) _ _ := found.map id id fun test value holds => by
    cases test with
    | globstar => exact fun _ => holds rfl
    | segment pattern => exact SegmentDenotes.mono holds
  have same : Item.map (id : SegmentTest → SegmentTest) = id := by
    funext item
    cases item <;> rfl
  rwa [same, map_id, map_id] at more

/-! ## Tables -/

theorem exists_scalarRows (pattern value : List Nat) :
    ∃ result, Computes consume (matchRows (consume 1) (fun test scalar => pure (scalarTest test scalar))
        (pattern.map scalarItem) value) result ∧ (result = true ↔ ScalarsMatch pattern value) :=
  exists_matchRows (fun _ _ => computes_pure _) (fun _ _ => Iff.rfl) _ _

theorem exists_segmentMatch (pattern value : Text) (dotWildcards foldCase : Bool) :
    ∃ result, Computes consume (segmentMatch pattern value dotWildcards foldCase) result ∧
      (result = true ↔ SegmentDenotes dotWildcards foldCase pattern value) := by
  unfold segmentMatch SegmentDenotes
  dsimp only
  split_ifs with hidden
  · refine ⟨false, computes_pure _, ?_⟩
    simp only [Bool.and_eq_true, Bool.or_eq_true, Bool.not_eq_true', beq_iff_eq,
      head?_codePoints_foldIf (.inl rfl), head?_codePoints_foldIf (.inr rfl)] at hidden
    simp only [Bool.false_eq_true, false_iff, not_and]
    intro plain
    have open' := plain hidden.1.1 hidden.1.2
    exact absurd hidden.2 (not_or.mpr open')
  · obtain ⟨result, computes, decides⟩ := exists_scalarRows (codePoints (foldIf foldCase pattern))
      (codePoints (foldIf foldCase value))
    refine ⟨result, computes, decides.trans (and_iff_right fun dots dot => ?_).symm⟩
    simp only [dots, dot, Bool.not_false, Bool.true_and, Bool.or_eq_true, beq_iff_eq, not_or,
      head?_codePoints_foldIf (.inl rfl), head?_codePoints_foldIf (.inr rfl)] at hidden
    exact hidden

theorem exists_segmentTest (dotWildcards foldCase : Bool) (test : SegmentTest) (value : Text) :
    ∃ result, Computes consume (segmentTest dotWildcards foldCase test value) result ∧
      (result = true ↔ SegmentHolds dotWildcards foldCase test value) := by
  cases test with
  | globstar =>
    refine ⟨_, computes_pure _, ?_⟩
    rw [SegmentHolds]
    cases dotWildcards <;> simp
  | segment pattern => exact exists_segmentMatch pattern value dotWildcards foldCase

def Sized (pattern path : Text) : Prop :=
  (RepositoryPath.pathSegments pattern).length ≤ maxPathSegments ∧
    (pathSegmentsOf path).length ≤ maxPathSegments

/-- What a table says of one reading. -/
structure Reads (dotWildcards foldCase : Bool) (pattern path : Text) (result : MatchResult) : Prop where
  matched : result = .matched ↔ Sized pattern path ∧ Denotes dotWildcards foldCase pattern path
  noMatch : result = .noMatch ↔ Sized pattern path ∧ ¬ Denotes dotWildcards foldCase pattern path

theorem exists_pathMatch (pattern path : Text) (dotWildcards foldCase : Bool) :
    ∃ result, Computes consume (pathMatch pattern path dotWildcards foldCase) result ∧
      Reads dotWildcards foldCase pattern path result := by
  choose value tests sound using exists_segmentTest dotWildcards foldCase
  obtain ⟨covered, computes, decides⟩ : ∃ covered, Computes consume (matchRows (consume 1)
      (segmentTest dotWildcards foldCase) _ _) covered ∧
      (covered = true ↔ Denotes dotWildcards foldCase pattern path) := exists_matchRows tests sound _ _
  unfold pathMatch
  dsimp only
  split_ifs with long
  · have unsized : ¬ Sized pattern path := by
      unfold Sized
      omega
    exact ⟨_, computes_pure _, by simp [unsized], by simp [unsized]⟩
  · have sized : Sized pattern path := by
      unfold Sized
      omega
    refine ⟨_, computes.bind (computes_pure _), ?_, ?_⟩ <;>
      cases covered <;> simp_all

/-! ## The answer about a pattern -/

/-- The dialect says what the pattern means. -/
structure Documented (dialect : ProfileGlobDialect) (pattern : Text) : Prop where
  text : isUnsupportedText pattern ≠ true
  question : (pattern.contains 0x3f && dialect.questionMark != .documented) ≠ true
  segments : (RepositoryPath.pathSegments pattern).any (isUnsupportedSegment dialect) ≠ true

def AllDenote (pattern path : Text) : Prop :=
  ∀ dotWildcards foldCase, Denotes dotWildcards foldCase pattern path

def NoneDenotes (pattern path : Text) : Prop :=
  ∀ dotWildcards foldCase, ¬ Denotes dotWildcards foldCase pattern path

/-- The answer is about all readings and is open where they differ. Where they agree it is open for signs
that the dialect leaves open, too many segments and letters whose case is not folded only. -/
structure Answers (dialect : ProfileGlobDialect) (pattern path : Text) (result : MatchResult) :
    Prop where
  matched : result = .matched → AllDenote pattern path
  noMatch : result = .noMatch → NoneDenotes pattern path
  differ : ¬ AllDenote pattern path → ¬ NoneDenotes pattern path → result = .unknown
  agree : Documented dialect pattern → Sized pattern path → AllDenote pattern path → result = .matched
  agreeNot : Documented dialect pattern → Sized pattern path →
    (hasNonAscii pattern || hasNonAscii path) ≠ true → NoneDenotes pattern path → result = .noMatch

theorem answers_unknown
    (some : Documented dialect pattern → Sized pattern path → ¬ AllDenote pattern path)
    (any : Documented dialect pattern → Sized pattern path →
      (hasNonAscii pattern || hasNonAscii path) ≠ true → ¬ NoneDenotes pattern path) :
    Answers dialect pattern path .unknown where
  matched := nofun
  noMatch := nofun
  differ := fun _ _ => rfl
  agree := fun documented sized all => absurd all (some documented sized)
  agreeNot := fun documented sized ascii none => absurd none (any documented sized ascii)

theorem exists_matchDocumentedSubset
    (plain : (pattern.contains 0x5b || pattern.contains 0x5d) ≠ true) :
    ∃ result, Computes consume (matchDocumentedSubset pattern path dialect) result ∧
      Answers dialect pattern path result := by
  choose answer computes reads using exists_pathMatch pattern path
  unfold matchDocumentedSubset
  rw [if_neg plain]
  refine ⟨_, Computes.ite (fun _ => computes_pure _) fun _ =>
    Computes.ite (fun _ => computes_pure _) fun _ => Computes.ite (fun _ => computes_pure _) fun _ =>
    (computes false false).bind <| Computes.ite (fun _ => computes_pure _) fun _ =>
    (computes true false).bind <| Computes.ite (fun _ => computes_pure _) fun _ =>
    (computes false true).bind <| Computes.ite (fun _ => computes_pure _) fun _ =>
    (computes true true).bind <| Computes.ite (fun _ => computes_pure _) fun _ =>
    Computes.ite (fun _ => computes_pure _) fun _ => computes_pure _, ?_⟩
  -- A table that does not say no rules out that no reading matches.
  have some : ∀ {dotWildcards foldCase}, answer dotWildcards foldCase ≠ .noMatch →
      Sized pattern path → ¬ NoneDenotes pattern path := fun other sized none =>
    other ((reads _ _).noMatch.mpr ⟨sized, none _ _⟩)
  split_ifs with text question segments strict dots folded both letters
  · exact answers_unknown (fun documented => absurd text documented.text) fun documented =>
      absurd text documented.text
  · exact answers_unknown (fun documented => absurd question documented.question) fun documented =>
      absurd question documented.question
  · exact answers_unknown (fun documented => absurd segments documented.segments) fun documented =>
      absurd segments documented.segments
  · have all : answer false false = .matched → AllDenote pattern path := fun matched _ _ =>
      ((reads _ _).matched.mp matched).2.mono
    refine ⟨all, fun no => absurd no strict, fun differ _ => ?_, fun _ sized all =>
      (reads _ _).matched.mpr ⟨sized, all _ _⟩, fun _ sized _ none => absurd none (some strict sized)⟩
    cases given : answer false false with
    | matched => exact absurd (all given) differ
    | noMatch => exact absurd given strict
    | unknown => rfl
  all_goals have not := ((reads _ _).noMatch.mp (not_not.mp strict)).2
  · exact answers_unknown (fun _ _ all => not (all _ _)) fun _ sized _ => some dots sized
  · exact answers_unknown (fun _ _ all => not (all _ _)) fun _ sized _ => some folded sized
  · exact answers_unknown (fun _ _ all => not (all _ _)) fun _ sized _ => some both sized
  · exact answers_unknown (fun _ _ all => not (all _ _)) fun _ _ ascii => absurd letters ascii
  · have none : NoneDenotes pattern path := by
      rintro (_ | _) (_ | _)
      · exact not
      · exact ((reads _ _).noMatch.mp (not_not.mp folded)).2
      · exact ((reads _ _).noMatch.mp (not_not.mp dots)).2
      · exact ((reads _ _).noMatch.mp (not_not.mp both)).2
    exact ⟨nofun, fun _ => none, fun _ any => absurd none any, fun _ _ all => absurd (all _ _) not,
      fun _ _ _ _ => rfl⟩

/-- Whatever the budget was before, an answer about a pattern without brackets is about all its
readings, and the tables behind it decide the readings. -/
theorem matchDocumentedSubset_answers {work spent : Nat} {result : MatchResult}
    (plain : (pattern.contains 0x5b || pattern.contains 0x5d) ≠ true)
    (run : matchDocumentedSubset pattern path dialect work = .ok (result, spent)) :
    Answers dialect pattern path result ∧
      (∀ dotWildcards foldCase work result spent,
        pathMatch pattern path dotWildcards foldCase work = .ok (result, spent) →
          Reads dotWildcards foldCase pattern path result) ∧
      ∀ segment value dotWildcards foldCase work result spent,
        segmentMatch segment value dotWildcards foldCase work = .ok (result, spent) →
          (result = true ↔ SegmentDenotes dotWildcards foldCase segment value) := by
  refine ⟨?_, fun dotWildcards foldCase _ _ _ run => ?_, fun segment value dotWildcards foldCase _ _ _ run => ?_⟩
  · obtain ⟨_, computes, answers⟩ := exists_matchDocumentedSubset plain
    rwa [computes.eq_of_run run]
  · obtain ⟨_, computes, reads⟩ := exists_pathMatch pattern path dotWildcards foldCase
    rwa [computes.eq_of_run run]
  · obtain ⟨_, computes, decides⟩ := exists_segmentMatch segment value dotWildcards foldCase
    rwa [computes.eq_of_run run]

/-- A globstar in the middle. -/
theorem matchDocumentedSubset_answers_markdown :
    ∃ spent, Answers claudeDialect (js "docs/**/*.md") (js "docs/a/b.md") .matched ∧
      matchDocumentedSubset (js "docs/**/*.md") (js "docs/a/b.md") claudeDialect 0 =
        .ok (.matched, spent) := by
  have run : (matchDocumentedSubset (js "docs/**/*.md") (js "docs/a/b.md") claudeDialect 0).map (·.1) =
      .ok .matched := by decide +kernel
  obtain ⟨⟨_, spent⟩, accepted, rfl⟩ := eq_ok_of_map run
  exact ⟨spent, (matchDocumentedSubset_answers (by decide) accepted).1, accepted⟩

end AgentContextLint.ProfileGlobDialects
