import AgentContextLint.Evidence.IgnoreEngine

/-!
# Decisions of the ignore engine

The value of `matchingRule` and `excludedBy`, without the budget. `selectRule` takes the last
rule of the highest rank among those that apply, so it does not look at the numbers that rules
are given; `excluding` is the first directory on the way to a path, or the path itself, that
is selected for exclusion.

* `excluding_filter` and `excluding_content`: only the rules whose base directory contains the
  path count, and not their numbers.
-/

namespace AgentContextLint

open Utf16 Metered List

namespace RepositoryPath

theorem joinSegments_append {first second : List Text} (left : first ≠ []) (right : second ≠ [])
    : joinSegments (first ++ second) = joinSegments first ++ 0x2f :: joinSegments second := by
  induction first with
  | nil => exact (left rfl).elim
  | cons segment rest ih =>
    cases rest with
    | nil =>
      obtain ⟨head, tail, rfl⟩ := exists_cons_of_ne_nil right
      simp [joinSegments, intercalate]
    | cons next others =>
      have inner := ih (cons_ne_nil _ _)
      simp only [joinSegments, cons_append, intercalate_cons_cons] at inner ⊢
      rw [inner]
      simp

end RepositoryPath

namespace IgnoreEngine

open RepositoryPath

variable {rules : List InternalRule} {path base : RelativePath}
  {selected : Option InternalRule} {path : RelativePath}

/-! ## Base directories -/

/-- The path lies below the base directory. -/
def Below (path base : RelativePath) : Prop :=
  base = repositoryRoot ∨ ∃ rest, path = base ++ 0x2f :: rest

theorem isSome_relativeToBase : (relativeToBase path base).isSome = true ↔ Below path base := by
  unfold relativeToBase Below
  by_cases root : base = repositoryRoot
  · simp [root]
  · rw [if_neg root, Option.isSome_ite, isPrefixOf_iff_prefix, or_iff_right root]
    constructor
    · rintro ⟨rest, eq⟩
      exact ⟨rest, by rw [← eq, append_assoc, singleton_append]⟩
    · rintro ⟨rest, eq⟩
      exact ⟨rest, by rw [eq, append_assoc, singleton_append]⟩

/-- The directory is the path itself or one above it. -/
def UpTo (directory path : RelativePath) : Prop :=
  directory = path ∨ ∃ rest, path = directory ++ 0x2f :: rest

theorem Below.of_upTo {directory path base : RelativePath}
    (below : Below directory base) (upTo : UpTo directory path) : Below path base := by
  rcases below with root | ⟨rest, rfl⟩
  · exact .inl root
  · rcases upTo with rfl | ⟨more, rfl⟩
    · exact .inr ⟨rest, rfl⟩
    · exact .inr ⟨rest ++ 0x2f :: more, by simp⟩

theorem Below.upTo (below : Below path base) (notRoot : base ≠ repositoryRoot) : UpTo base path :=
  .inr (below.resolve_left notRoot)

/-- A base directory other than the root has fewer segments than what lies below it. -/
theorem Below.pathDepth_lt (below : Below path base)
    (notRoot : base ≠ repositoryRoot) : pathDepth base < pathDepth path := by
  obtain ⟨rest, rfl⟩ := below.resolve_left notRoot
  have nonempty := length_pos_iff.mpr (pathSegments_ne_nil rest)
  simp only [pathDepth, pathSegments_append, length_append]
  omega

theorem upTo_of_mem_directoriesOf {path directory : RelativePath} {count : Nat}
    (member : directory ∈ directoriesOf (pathSegments path) count) : UpTo directory path := by
  obtain ⟨depth, -, rfl⟩ := mem_map.mp member
  rw [← joinSegments_pathSegments path]
  generalize pathSegmentsEq : pathSegments (joinSegments (pathSegments path)) = segments
  by_cases whole : segments.drop (depth + 1) = []
  · left
    rw [joinSegments_pathSegments] at pathSegmentsEq
    rw [take_of_length_le (drop_eq_nil_iff.mp whole), pathSegmentsEq]
  · right
    rw [joinSegments_pathSegments] at pathSegmentsEq
    refine ⟨joinSegments (segments.drop (depth + 1)), ?_⟩
    have above : segments.take (depth + 1) ≠ [] := by
      have nonempty := pathSegments_ne_nil path
      rw [pathSegmentsEq] at nonempty
      simp [take_eq_nil_iff, nonempty]
    rw [← joinSegments_append above whole, take_append_drop, pathSegmentsEq]

/-! ## The selected rule -/

def AppliesTo (path : RelativePath) (directory : Bool) (rule : InternalRule) : Prop :=
  ∃ compiled relative, rule.compiled = some compiled ∧
    relativeToBase path rule.rule.basePath = some relative ∧
    (rule.rule.directoryOnly = true → directory = true) ∧ Accepts compiled relative

/-- Of two rules the one of the higher rank, and of one rank the later. -/
def laterOfRank : Option InternalRule → InternalRule → Option InternalRule
  | none, rule => some rule
  | some selected, rule => if selected.sourceRank ≤ rule.sourceRank then some rule else some selected

open Classical in
/-- The last rule of the highest rank among those that apply. -/
noncomputable def selectRule (rules : List InternalRule) (path : RelativePath)
    (directory : Bool) : Option InternalRule :=
  (rules.filter fun rule => AppliesTo path directory rule).foldl laterOfRank none

def Numbered (rules : List InternalRule) : Prop :=
  rules.Pairwise fun rule later => rule.sourceSequence < later.sourceSequence

theorem supersedes_eq_laterOfRank {rule : InternalRule}
    (later : ∀ before ∈ selected, before.sourceSequence < rule.sourceSequence) :
    (if supersedes rule selected then some rule else selected) = laterOfRank selected rule := by
  cases selected with
  | none => rfl
  | some before =>
    have number := later before rfl
    simp only [supersedes, laterOfRank, Bool.or_eq_true, Bool.and_eq_true, decide_eq_true_eq,
      beq_iff_eq]
    congr 1
    simp only [eq_iff_iff]
    omega

open Classical in
theorem computes_matchingRuleFrom (path : RelativePath) (directory : Bool) (numbered : Numbered rules)
    (later : ∀ before ∈ selected, ∀ rule ∈ rules, before.sourceSequence < rule.sourceSequence) :
    Computes consume (matchingRuleFrom path directory selected rules)
      ((rules.filter fun rule => AppliesTo path directory rule).foldl laterOfRank selected) := by
  induction rules generalizing selected with
  | nil => exact computes_pure _
  | cons rule rest ih =>
    obtain ⟨first, numbered⟩ := pairwise_cons.mp numbered
    have skip := ih numbered fun before member rule inRest =>
      later before member rule (mem_cons_of_mem _ inRest)
    have take : Computes consume
        (matchingRuleFrom path directory (if supersedes rule selected then some rule else selected)
          rest)
        ((rest.filter fun rule => AppliesTo path directory rule).foldl laterOfRank
          (laterOfRank selected rule)) := by
      rw [supersedes_eq_laterOfRank fun before member =>
        later before member rule mem_cons_self]
      refine ih numbered fun before member after inRest => ?_
      have cases : before = rule ∨ before ∈ selected := by
        cases selected with
        | none => exact .inl (Option.some.inj member).symm
        | some other =>
          by_cases rank : other.sourceRank ≤ rule.sourceRank
          · rw [laterOfRank, if_pos rank] at member
            exact .inl (Option.some.inj member).symm
          · rw [laterOfRank, if_neg rank] at member
            exact .inr member
      rcases cases with rfl | member
      · exact first after inRest
      · exact later before member after (mem_cons_of_mem _ inRest)
    unfold matchingRuleFrom
    refine (computes_charge 1).bind ?_
    by_cases applies : AppliesTo path directory rule
    · rw [filter_cons_of_pos (by simpa using applies), foldl_cons]
      obtain ⟨compiled, relative, compiledEq, relativeEq, allowed, accepts⟩ := applies
      obtain ⟨result, computes, sound⟩ := computes_compiledMatches compiled relative
      have guard : ¬ (rule.rule.directoryOnly && !directory) = true := by
        simpa using allowed
      simp only [compiledEq, relativeEq, if_neg guard]
      refine computes.bind ?_
      rw [if_pos (sound.mpr accepts)]
      exact take
    · rw [filter_cons_of_neg (by simpa using applies)]
      split
      · rename_i compiled relative compiledEq relativeEq
        split
        · exact skip
        · rename_i guard
          obtain ⟨result, computes, sound⟩ := computes_compiledMatches compiled relative
          have rejects : ¬ result = true := fun accepts =>
            applies ⟨compiled, relative, compiledEq, relativeEq, by simpa using guard,
              sound.mp accepts⟩
          refine computes.bind ?_
          rw [if_neg rejects]
          exact skip
      · exact skip

theorem computes_matchingRule (path : RelativePath) (directory : Bool) (numbered : Numbered rules) :
    Computes consume (matchingRule path directory rules) (selectRule rules path directory) :=
  computes_matchingRuleFrom path directory numbered (by simp)

/-! ## What excludes a path -/

/-- What `excludedBy` looks at: the directories from the outermost one, and the file. -/
def candidates (path : RelativePath) (file : Bool) : List (RelativePath × Bool) :=
  let components := pathSegments path
  (directoriesOf components (if file then components.length - 1 else components.length)).map
      (·, true) ++
    if file then [(path, false)] else []

noncomputable def excludes (rules : List InternalRule) (candidate : RelativePath × Bool) :
    Option InternalRule :=
  positive (selectRule rules candidate.1 candidate.2)

noncomputable def excluding (rules : List InternalRule) (path : RelativePath)
    (file : Bool) : Option InternalRule :=
  (candidates path file).findSome? (excludes rules)

theorem computes_excludedDirectory (numbered : Numbered rules) (directories : List RelativePath) :
    Computes consume (excludedDirectory rules directories)
      ((directories.map (·, true)).findSome? (excludes rules)) := by
  induction directories with
  | nil => exact computes_pure _
  | cons directory rest ih =>
    unfold excludedDirectory
    refine (computes_charge _).bind ((computes_matchingRule directory true numbered).bind ?_)
    rw [map_cons, findSome?_cons, excludes]
    cases positive (selectRule rules directory true) with
    | some rule => exact computes_pure (some rule)
    | none => exact ih

theorem computes_excludedBy (numbered : Numbered rules) (path : RelativePath)
    (file : Bool) : Computes consume (excludedBy path file rules) (excluding rules path file) := by
  refine (computes_excludedDirectory numbered _).bind ?_
  unfold excluding candidates
  rw [findSome?_append]
  cases (map (·, true) _).findSome? _ with
  | some rule => exact computes_pure (some rule)
  | none =>
    cases file with
    | true =>
      simpa [excludes] using (computes_matchingRule path false numbered).map positive
    | false => exact computes_pure none

theorem upTo_of_mem_candidates {file : Bool} {candidate : RelativePath × Bool}
    (member : candidate ∈ candidates path file) : UpTo candidate.1 path := by
  rcases mem_append.mp member with member | member
  · obtain ⟨directory, inDirectories, rfl⟩ := mem_map.mp member
    exact upTo_of_mem_directoriesOf inDirectories
  · cases file with
    | true =>
      rw [if_pos rfl, mem_singleton] at member
      exact .inl (congrArg Prod.fst member)
    | false => simp at member

/-- What excludes a directory excludes everything below it. -/
theorem excluding_of_below {path directory : RelativePath}
    (below : ∃ rest, path = directory ++ 0x2f :: rest)
    (excluded : (excluding rules directory false).isSome = true) :
    excluding rules path true = excluding rules directory false := by
  obtain ⟨rest, rfl⟩ := below
  have prefixed : ∃ more, candidates (directory ++ 0x2f :: rest) true =
      candidates directory false ++ more := by
    have nonempty := length_pos_iff.mpr (pathSegments_ne_nil rest)
    simp only [candidates, pathSegments_append, if_true, length_append, directoriesOf,
      Bool.false_eq_true, if_false, append_nil]
    rw [Nat.add_sub_assoc nonempty, range_add, map_append, map_append, append_assoc]
    refine ⟨_, congrArg (· ++ _) ?_⟩
    rw [map_map, map_map]
    refine map_congr_left fun depth member => ?_
    have within := mem_range.mp member
    simp only [Function.comp_apply]
    rw [take_append_of_le_length (by omega)]
  obtain ⟨more, eq⟩ := prefixed
  obtain ⟨rule, found⟩ := Option.isSome_iff_exists.mp excluded
  rw [found]
  unfold excluding at found ⊢
  rw [eq, findSome?_append, found, Option.some_or]

/-! ## Rules in scope -/

/-- A rule without its number. -/
def ruleContent (rule : InternalRule) : InternalRule :=
  { rule with sourceSequence := 0, rule := { rule.rule with precedence := 0 } }

/-- The base directory of the rule contains the path. -/
def inScope (path : RelativePath) (rule : InternalRule) : Bool :=
  (relativeToBase path rule.rule.basePath).isSome

theorem laterOfRank_content (selected : Option InternalRule) (rule : InternalRule) :
    (laterOfRank selected rule).map ruleContent =
      laterOfRank (selected.map ruleContent) (ruleContent rule) := by
  cases selected with
  | none => rfl
  | some before =>
    change Option.map _ (ite _ _ _) = ite _ _ _
    rw [apply_ite (Option.map ruleContent)]
    rfl

/-- The numbers of the rules do not change which one is selected. -/
theorem selectRule_content (rules : List InternalRule) (path : RelativePath) (directory : Bool) :
    (selectRule rules path directory).map ruleContent =
      selectRule (rules.map ruleContent) path directory := by
  unfold selectRule
  rw [filter_map, foldl_map]
  have fold : ∀ (applying : List InternalRule) (selected : Option InternalRule),
      (applying.foldl laterOfRank selected).map ruleContent =
        applying.foldl (fun selected rule => laterOfRank selected (ruleContent rule))
          (selected.map ruleContent) := by
    intro applying
    induction applying with
    | nil => exact fun _ => rfl
    | cons rule rest ih =>
      intro selected
      rw [foldl_cons, foldl_cons, ih, laterOfRank_content]
  exact fold _ none

theorem excludes_content (rules : List InternalRule) (candidate : RelativePath × Bool) :
    (excludes rules candidate).map ruleContent = excludes (rules.map ruleContent) candidate := by
  rw [excludes, excludes, ← selectRule_content]
  cases selectRule rules candidate.1 candidate.2 with
  | none => rfl
  | some rule =>
    cases negative : rule.rule.negative <;>
      simp [positive, Option.filter, ruleContent, negative]

theorem excluding_content (rules : List InternalRule) (path : RelativePath) (file : Bool) :
    (excluding rules path file).map ruleContent = excluding (rules.map ruleContent) path file := by
  unfold excluding
  rw [map_findSome?]
  exact congrArg (fun f => findSome? f (candidates path file))
    (funext fun candidate => excludes_content rules candidate)

theorem findSome?_congr {α β : Type} {f g : α → Option β} {xs : List α}
    (agree : ∀ x ∈ xs, f x = g x) : xs.findSome? f = xs.findSome? g := by
  induction xs with
  | nil => rfl
  | cons x rest ih =>
    rw [findSome?_cons, findSome?_cons, agree x mem_cons_self,
      ih fun y member => agree y (mem_cons_of_mem x member)]

theorem excluding_filter (rules : List InternalRule) (path : RelativePath) (file : Bool) :
    excluding (rules.filter (inScope path)) path file = excluding rules path file := by
  unfold excluding
  refine findSome?_congr fun candidate member => ?_
  have upTo := upTo_of_mem_candidates member
  unfold excludes selectRule
  rw [filter_filter]
  congr 2
  refine filter_congr fun rule _ => ?_
  rw [Bool.eq_iff_iff]
  simp only [Bool.and_eq_true, decide_eq_true_eq, and_iff_left_iff_imp]
  rintro ⟨compiled, relative, -, below, -⟩
  have below := isSome_relativeToBase.mp (Option.isSome_of_mem below)
  exact isSome_relativeToBase.mpr (below.of_upTo upTo)

/-- The same rules in scope, numbers aside, decide alike. -/
theorem excluding_congr {rules others : List InternalRule}
    (same : (rules.filter (inScope path)).map ruleContent =
      (others.filter (inScope path)).map ruleContent) (file : Bool) :
    (excluding rules path file).map ruleContent = (excluding others path file).map ruleContent := by
  rw [← excluding_filter rules, ← excluding_filter others, excluding_content, excluding_content,
    same]

end IgnoreEngine

end AgentContextLint
