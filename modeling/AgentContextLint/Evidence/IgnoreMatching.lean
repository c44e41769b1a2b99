import AgentContextLint.Evidence.IgnorePattern
import Mathlib.Algebra.Group.Nat.Defs
import AgentContextLint.Lib.TrailingStar

/-!
# Matching compiled ignore patterns

Model of the matching half of `packages/evidence/src/ignore-engine.ts`: the work budget,
`componentMatches` and `compiledMatches`, both tables of `RowMatching`.

`GitignoreDenotes` is what a compiled pattern stands for, on the segments of a path.
`compiledMatches` counts a trailing globstar like any other one and makes up for it by
comparing lengths beforehand. `compiledMatches_agrees_iff` says for every pattern and every
number of segments when that is right on all paths: always, when the trailing globstar is the
only one, and otherwise under `TrailingGlobstarExact`.
-/

namespace AgentContextLint

open Utf16 Metered RowMatching List
open RepositoryPath (Canonical joinSegments pathSegments pathSegments_joinSegments)

/-- The budget of one run. `interruption k` is what checkpoint `k` throws on account of the
clock and the cancellation signal, if anything. -/
structure WorkBudget where
  limits : IgnoreEngineLimits
  interruption : Nat → Option IgnoreEngineError
  checkpoints : Nat
  lastCheckpointWork : Nat
  work : Nat

def WorkBudget.fresh (limits : IgnoreEngineLimits)
    (interruption : Nat → Option IgnoreEngineError) : WorkBudget :=
  { limits, interruption, checkpoints := 0, lastCheckpointWork := 0, work := 0 }

abbrev Budgeted := StateT WorkBudget (Except IgnoreEngineError)

namespace IgnoreEngine

variable {path : List Text} {rest : List PatternComponent}
  {compiled : CompiledPattern} {tokens : List CharacterToken}

/-- `Number.MAX_SAFE_INTEGER` -/
def maxSafeInteger : Nat := 2 ^ 53 - 1

def checkpoint : Budgeted PUnit := fun budget =>
  match budget.interruption budget.checkpoints with
  | some interruption => .error interruption
  | none => .ok (⟨⟩, { budget with
      checkpoints := budget.checkpoints + 1, lastCheckpointWork := budget.work })

def consume (amount : Nat) : Budgeted PUnit := fun budget =>
  let charged := { budget with work := budget.work + amount }
  if charged.work > maxSafeInteger ∨ charged.work > charged.limits.maximumMatchWork then
    .error {
      code := .limitExceeded, message := "ignore matching work limit was exceeded"
      operation := "match-limit", path := none }
  else if charged.work - charged.lastCheckpointWork ≥ 1024 then checkpoint charged
  else .ok (⟨⟩, charged)

/-! ## Components -/

def classMatches (inverted : Bool) (ranges : List (Nat × Nat)) (code : Nat) : Bool :=
  let matched := ranges.any fun (first, last) => first ≤ code && code ≤ last
  if inverted then !matched else matched

/-- The test of a token on one character. A star is an item of its own and tests none. -/
def tokenMatches : CharacterToken → Nat → Bool
  | .star, _ => false
  | .any, _ => true
  | .literal value, character => value == character
  | .class inverted ranges, character => classMatches inverted ranges character

def tokenItem : CharacterToken → Item CharacterToken
  | .star => .star
  | token => .one token

def componentMatches (tokens : List CharacterToken) (value : Text) : Budgeted Bool :=
  matchRows (consume 1) (fun token character => pure (tokenMatches token character))
    (tokens.map tokenItem) (codePoints value)

def ComponentDenotes (tokens : List CharacterToken) (segment : Text) : Prop :=
  Matches (fun token character => tokenMatches token character = true) (tokens.map tokenItem)
    (codePoints segment)

/-! ## Patterns -/

/-- The test of a component on one segment. A globstar is an item of its own. -/
def patternComponentMatches : PatternComponent → Text → Budgeted Bool
  | .globstar, _ => pure false
  | .tokens tokens, segment => componentMatches tokens segment

def patternComponentItem : PatternComponent → Item PatternComponent
  | .globstar => .star
  | component => .one component

/-- A pattern with a slash, against all segments of the path. -/
def anchoredMatches (compiled : CompiledPattern) (pathComponents : List Text) : Budgeted Bool :=
  if compiled.trailingGlobstarRequiresChild ∧
      pathComponents.length < compiled.components.length then pure false
  else matchRows (consume 1) patternComponentMatches
    (compiled.components.map patternComponentItem) pathComponents

/-- A pattern without a slash, against the last segment of the path. -/
def basenameMatches (compiled : CompiledPattern) (pathComponents : List Text) : Budgeted Bool :=
  match compiled.components.head? with
  | some (.tokens component) => componentMatches component (pathComponents.getLast?.getD [])
  | _ => pure false

def compiledMatches (compiled : CompiledPattern) (value : Text) : Budgeted Bool := do
  consume (max 1 value.length)
  if compiled.hasSlash then anchoredMatches compiled (pathSegments value)
  else basenameMatches compiled (pathSegments value)

/-- A budget without interruptions that has `cost` units of work left. -/
structure WorkBudget.Admits (budget : WorkBudget) (cost : Nat) : Prop where
  uninterrupted : ∀ k, budget.interruption k = none
  work : budget.work + cost ≤ budget.limits.maximumMatchWork
  exact : budget.work + cost ≤ maxSafeInteger

/-! ## What a pattern stands for -/

/-- One segment that a component stands for; no single segment for a globstar. -/
def Covers : PatternComponent → Text → Prop
  | .globstar, _ => False
  | .tokens tokens, segment => ComponentDenotes tokens segment

/-- The paths of an anchored pattern: a leading or inner globstar stands for zero or more
directories, a trailing one for one or more segments, any other component for one segment. -/
def PathDenotes : List PatternComponent → List Text → Prop
  | [], path => path = []
  | [.globstar], path => path ≠ []
  | .globstar :: rest, path =>
    ∃ directories below, path = directories ++ below ∧ PathDenotes rest below
  | component :: rest, path =>
    ∃ segment below, path = segment :: below ∧ Covers component segment ∧ PathDenotes rest below

/-- The paths a compiled pattern stands for. Without a slash it names the last segment. -/
def GitignoreDenotes (compiled : CompiledPattern) (path : List Text) : Prop :=
  if compiled.hasSlash then PathDenotes compiled.components path
  else ∃ component basename, compiled.components = [component] ∧ path.getLast? = some basename ∧
    Covers component basename

variable (components : List PatternComponent)

/-- The paths of the components before a trailing globstar, where every globstar stands for
zero or more directories. -/
def PrefixDenotes (path : List Text) : Prop :=
  Matches Covers (components.map patternComponentItem) path

/-- When the length test does for the segment that a trailing globstar asks for, on all paths of
`n` segments. Of the components before that globstar, none is a globstar itself; or they name at
least `n` segments; or one of them matches no name; or the pattern has at most `n` components
and those behind a globstar match every name. -/
def TrailingGlobstarExact (compiled : CompiledPattern) (n : Nat) : Prop :=
  compiled.trailingGlobstarRequiresChild = true →
    LengthTestExact Covers Canonical
      (compiled.components.dropLast.map patternComponentItem) n

/-- What the runs on each path return. A run completes under any budget that admits its cost. -/
structure Decides (compiled : CompiledPattern) (decision : Text → Bool) : Prop where
  completes : ∀ value, ∃ cost, ∀ budget, WorkBudget.Admits budget cost →
    ∃ after, compiledMatches compiled value budget = .ok (decision value, after)
  returned : ∀ value budget out after, compiledMatches compiled value budget = .ok (out, after) →
    out = decision value

/-- On every path of `n` names the decision is what the pattern stands for. -/
def RightOn (compiled : CompiledPattern) (decision : Text → Bool) (n : Nat) : Prop :=
  ∀ path : List Text, path ≠ [] → path.length = n →
    (∀ segment ∈ path, Canonical segment) →
      (decision (joinSegments path) = true ↔ GitignoreDenotes compiled path)

/-! ## The tables compute the languages -/

theorem computes_componentMatches (tokens : List CharacterToken) (value : Text) :
    ∃ result, Computes consume (componentMatches tokens value) result ∧
      (result = true ↔ ComponentDenotes tokens value) :=
  exists_matchRows (fun _ _ => computes_pure _) (fun _ _ => Iff.rfl) _ _

theorem computes_patternComponentMatches : ∃ value : PatternComponent → Text → Bool,
      (∀ component segment,
        Computes consume (patternComponentMatches component segment) (value component segment)) ∧
      ∀ component segment, value component segment = true ↔ Covers component segment := by
  have each : ∀ component segment, ∃ result,
      Computes consume (patternComponentMatches component segment) result ∧
        (result = true ↔ Covers component segment) := by
    intro component segment
    cases component with
    | globstar => exact ⟨false, computes_pure _, by simp [Covers]⟩
    | tokens tokens => exact computes_componentMatches tokens segment
  choose value computes sound using each
  exact ⟨value, computes, sound⟩

/-- The table over path components computes the pattern with every globstar standing for zero
or more directories. -/
theorem computes_prefix (path : List Text) : ∃ result, Computes consume
        (matchRows (consume 1) patternComponentMatches (components.map patternComponentItem) path)
        result ∧
      (result = true ↔ PrefixDenotes components path) := by
  obtain ⟨value, computes, sound⟩ := computes_patternComponentMatches
  exact exists_matchRows computes sound _ _

/-! ## Trailing globstars -/

theorem prefixDenotes_cons_tokens : PrefixDenotes (.tokens tokens :: rest) path ↔
      ∃ segment below, path = segment :: below ∧ ComponentDenotes tokens segment ∧
        PrefixDenotes rest below := Iff.rfl

theorem prefixDenotes_cons_globstar : PrefixDenotes (.globstar :: rest) path ↔
      ∃ directories below, path = directories ++ below ∧ PrefixDenotes rest below := Iff.rfl

theorem pathDenotes_cons_globstar {component : PatternComponent} :
    PathDenotes (.globstar :: component :: rest) path ↔
      ∃ directories below, path = directories ++ below ∧ PathDenotes (component :: rest) below :=
  Iff.rfl

theorem pathDenotes_cons_tokens : PathDenotes (.tokens tokens :: rest) path ↔
      ∃ segment below, path = segment :: below ∧ ComponentDenotes tokens segment ∧
        PathDenotes rest below := Iff.rfl

/-- Without a trailing globstar no globstar needs a segment. -/
theorem pathDenotes_iff_prefixDenotes {components : List PatternComponent}
    (notTrailing : components.getLast? ≠ some .globstar) (path : List Text) :
    PathDenotes components path ↔ PrefixDenotes components path := by
  induction components generalizing path with
  | nil => rfl
  | cons component rest ih =>
    have restNotTrailing : rest.getLast? ≠ some .globstar := by
      cases rest with
      | nil => simp
      | cons second others => simpa using notTrailing
    cases component with
    | tokens tokens =>
      simp only [pathDenotes_cons_tokens, prefixDenotes_cons_tokens, ih restNotTrailing]
    | globstar =>
      cases rest with
      | nil => simp at notTrailing
      | cons second others =>
        simp only [pathDenotes_cons_globstar, prefixDenotes_cons_globstar, ih restNotTrailing]

/-- With a trailing globstar the path goes on below something the prefix matches. -/
theorem pathDenotes_append_globstar (path : List Text) :
    PathDenotes (components ++ [.globstar]) path ↔
      ∃ k < path.length, PrefixDenotes components (path.take k) := by
  have split : PathDenotes (components ++ [.globstar]) path ↔
      ∃ above below, path = above ++ below ∧ below ≠ [] ∧ PrefixDenotes components above := by
    induction components generalizing path with
    | nil =>
      constructor
      · exact fun nonempty => ⟨[], path, rfl, nonempty, rfl⟩
      · rintro ⟨_, below, rfl, nonempty, rfl⟩
        exact nonempty
    | cons component rest ih =>
      cases component with
      | tokens tokens =>
        simp only [cons_append, pathDenotes_cons_tokens, prefixDenotes_cons_tokens, ih]
        constructor
        · rintro ⟨segment, _, rfl, covers, above, below, rfl, nonempty, denotes⟩
          exact ⟨segment :: above, below, rfl, nonempty, segment, above, rfl, covers, denotes⟩
        · rintro ⟨_, below, rfl, nonempty, segment, above, rfl, covers, denotes⟩
          exact ⟨segment, above ++ below, rfl, covers, above, below, rfl, nonempty, denotes⟩
      | globstar =>
        obtain ⟨second, others, next⟩ :=
          exists_cons_of_ne_nil (concat_ne_nil PatternComponent.globstar rest)
        simp only [cons_append, next, pathDenotes_cons_globstar, prefixDenotes_cons_globstar]
        simp only [← next, ih]
        constructor
        · rintro ⟨directories, _, rfl, above, below, rfl, nonempty, denotes⟩
          exact ⟨directories ++ above, below, (append_assoc ..).symm, nonempty,
            directories, above, rfl, denotes⟩
        · rintro ⟨_, below, rfl, nonempty, directories, above, rfl, denotes⟩
          exact ⟨directories, above ++ below, append_assoc .., above, below, rfl, nonempty, denotes⟩
  rw [split]
  constructor
  · rintro ⟨above, below, rfl, nonempty, denotes⟩
    have positive := List.length_pos_iff.mpr nonempty
    refine ⟨above.length, by simp only [length_append]; omega, ?_⟩
    rwa [take_left]
  · rintro ⟨k, short, denotes⟩
    refine ⟨path.take k, path.drop k, (take_append_drop k path).symm, ?_, denotes⟩
    rw [ne_eq, drop_eq_nil_iff]
    omega

/-! ## The decision on one path -/

theorem consume_of_admits {budget : WorkBudget} {amount rest : Nat}
    (admits : WorkBudget.Admits budget (amount + rest)) :
    ∃ after, consume amount budget = .ok (⟨⟩, after) ∧ WorkBudget.Admits after rest := by
  have ⟨uninterrupted, work, exact⟩ := admits
  have within : ¬ (budget.work + amount > maxSafeInteger ∨
      budget.work + amount > budget.limits.maximumMatchWork) := by omega
  unfold consume
  simp only [within, if_false]
  split
  · simp only [checkpoint, uninterrupted]
    exact ⟨_, rfl, uninterrupted, by dsimp only; omega, by dsimp only; omega⟩
  · exact ⟨_, rfl, uninterrupted, by dsimp only; omega, by dsimp only; omega⟩

/-- A metered computation completes under a budget that admits its charges. -/
theorem run_of_admits {α : Type} {x : Budgeted α} {value : α} (computes : Computes consume x value) :
    ∃ cost, ∀ budget : WorkBudget, WorkBudget.Admits budget cost →
      ∃ after, x budget = .ok (value, after) := by
  obtain ⟨amounts, rfl⟩ := computes
  refine ⟨amounts.sum, ?_⟩
  induction amounts with
  | nil => exact fun budget _ => ⟨budget, rfl⟩
  | cons amount rest ih =>
    intro budget admits
    rw [sum_cons] at admits
    obtain ⟨next, charged, admits⟩ := consume_of_admits admits
    obtain ⟨after, run⟩ := ih next admits
    refine ⟨after, ?_⟩
    rw [chargeAll, bind_assoc]
    change (consume amount budget >>= fun out =>
      (chargeAll consume rest >>= fun _ => pure value) out.2) = _
    rw [charged]
    exact run

/-- What the tables and the length test decide. -/
def Accepts (compiled : CompiledPattern) (value : Text) : Prop :=
  if compiled.hasSlash then
    ¬ (compiled.trailingGlobstarRequiresChild ∧
      (pathSegments value).length < compiled.components.length) ∧
    PrefixDenotes compiled.components (pathSegments value)
  else ∃ tokens, compiled.components.head? = some (.tokens tokens) ∧
    ComponentDenotes tokens ((pathSegments value).getLast?.getD [])

theorem computes_compiledMatches (compiled : CompiledPattern) (value : Text) :
    ∃ result, Computes consume (compiledMatches compiled value) result ∧
      (result = true ↔ Accepts compiled value) := by
  unfold Accepts
  unfold compiledMatches
  cases compiled.hasSlash with
  | true =>
    obtain ⟨result, computes, sound⟩ :=
      computes_prefix compiled.components (pathSegments value)
    by_cases short : compiled.trailingGlobstarRequiresChild ∧
        (pathSegments value).length < compiled.components.length
    · refine ⟨false, (computes_charge _).bind ?_, by simp [short]⟩
      rw [if_pos rfl, anchoredMatches, if_pos short]
      exact computes_pure _
    · refine ⟨result, (computes_charge _).bind ?_, by simp only [if_true, short, sound]; simp⟩
      rw [if_pos rfl, anchoredMatches, if_neg short]
      exact computes
  | false =>
    simp only [Bool.false_eq_true, if_false, basenameMatches]
    rcases head : compiled.components.head? with _ | _ | tokens
    · exact ⟨false, (computes_charge _).bind (computes_pure _), by simp⟩
    · exact ⟨false, (computes_charge _).bind (computes_pure _), by simp⟩
    · obtain ⟨result, computes, sound⟩ := computes_componentMatches tokens
        ((pathSegments value).getLast?.getD [])
      exact ⟨result, (computes_charge _).bind computes, by simpa using sound⟩

/-- The shape of a pattern that `makeRule` compiles. -/
structure Compiles (compiled : CompiledPattern) : Prop where
  nonempty : compiled.components ≠ []
  requiresChild : compiled.trailingGlobstarRequiresChild =
    (compiled.hasSlash && decide (compiled.components.length > 1) &&
      compiled.components.getLast? == some .globstar)
  basename : compiled.hasSlash = false → ∃ tokens, compiled.components = [.tokens tokens]

theorem Compiles.of_makeRule {raw : Text} {source : IgnoreRuleSource}
    {basePath : RelativePath} {sequence : Nat} {limits : IgnoreEngineLimits}
    {rule : InternalRule} (made : makeRule raw source basePath sequence limits = .ok (some rule))
    (compiles : rule.compiled = some compiled) : Compiles compiled := by
  rw [makeRule_eq_ok made] at compiles
  obtain ⟨anchored, value, compiles⟩ := ruleOfText_compiled compiles
  obtain ⟨hasSlash, nonempty, requiresChild, basename⟩ := compilePattern_eq_some compiles
  refine ⟨nonempty, by rw [requiresChild, hasSlash], fun noSlash => ?_⟩
  rw [hasSlash] at noSlash
  refine basename noSlash fun slash => ?_
  simp [slash] at noSlash

/-- A pattern without a child requirement matches exactly what it stands for. -/
theorem gitignoreDenotes_of_no_child (shape : Compiles compiled)
    (slash : compiled.hasSlash = true) (free : compiled.trailingGlobstarRequiresChild = false) (nonempty : path ≠ []) :
    GitignoreDenotes compiled path ↔ PrefixDenotes compiled.components path := by
  rw [GitignoreDenotes, if_pos slash]
  by_cases trailing : compiled.components.getLast? = some .globstar
  · have single : compiled.components = [.globstar] := by
      have short := shape.requiresChild
      rw [free, slash, trailing] at short
      simp only [Bool.true_and, beq_self_eq_true, Bool.and_true, eq_comm (a := false),
        decide_eq_false_iff_not] at short
      match compiled.components, shape.nonempty, short, trailing with
      | [component], _, _, trailing => simpa using trailing
      | _ :: _ :: _, _, short, _ => simp at short
    simp only [single, PathDenotes, nonempty, ne_eq, not_false_eq_true, true_iff]
    exact prefixDenotes_cons_globstar.mpr ⟨path, [], (append_nil path).symm, rfl⟩
  · exact pathDenotes_iff_prefixDenotes trailing path

theorem canonical_letter (u : CodeUnit) (letter : u = 0x61 ∨ u = 0x62) :
    Canonical [u] := by
  rcases letter with rfl | rfl <;> constructor <;> decide

/-- Behind a trailing globstar the decision and the denotation are the two sides of the length
test. -/
theorem rightOn_iff_of_child {front : List PatternComponent} {decision : Text → Bool}
    (slash : compiled.hasSlash = true) (child : compiled.trailingGlobstarRequiresChild = true)
    (split : compiled.components = front ++ [.globstar])
    (sound : ∀ value, decision value = true ↔ Accepts compiled value) (n : Nat) :
    RightOn compiled decision n ↔
      LengthTestExact Covers Canonical (front.map patternComponentItem) n := by
  rw [← lengthTest_exact_iff (canonical_letter 0x61 (.inl rfl))]
  refine forall_congr' fun path => ?_
  rcases eq_or_ne path [] with rfl | nonempty
  · simp +contextual [eq_comm (a := 0)]
  · simp only [ne_eq, nonempty, not_false_eq_true, forall_true_left]
    refine forall_congr' fun length => forall_congr' fun canonical => ?_
    rw [sound, Accepts, GitignoreDenotes, if_pos slash, if_pos slash, child,
      pathSegments_joinSegments canonical nonempty, split,
      pathDenotes_append_globstar, length, PrefixDenotes, map_append]
    simp only [true_and, Nat.not_lt, length_append, length_singleton, length_map,
      Nat.add_one_le_iff]
    rfl

/-- Every pattern is decided on every path. For each number of segments, the decision is what the
pattern stands for on all paths of that length exactly when the length test does for the segment
below a trailing globstar. -/
theorem compiledMatches_agrees_iff {raw : Text} {source : IgnoreRuleSource}
    {basePath : RelativePath} {sequence : Nat} {limits : IgnoreEngineLimits}
    {rule : InternalRule} {compiled : CompiledPattern}
    (made : makeRule raw source basePath sequence limits = .ok (some rule))
    (compiles : rule.compiled = some compiled) :
    ∃ decision, Decides compiled decision ∧
      ∀ n, RightOn compiled decision n ↔ TrailingGlobstarExact compiled n := by
  have shape := Compiles.of_makeRule made compiles
  choose decision computes sound using computes_compiledMatches compiled
  refine ⟨decision, ⟨fun value => run_of_admits (computes value), fun value _ _ _ run =>
    ((computes value).eq_of_run run).symm ▸ rfl⟩, fun n => ?_⟩
  cases child : compiled.trailingGlobstarRequiresChild with
  | true =>
    have requires := shape.requiresChild
    rw [child] at requires
    simp only [eq_comm (a := true), Bool.and_eq_true, beq_iff_eq] at requires
    obtain ⟨⟨slash, -⟩, trailing⟩ := requires
    obtain ⟨front, split⟩ := getLast?_eq_some_iff.mp trailing
    rw [rightOn_iff_of_child slash child split sound, TrailingGlobstarExact, split, dropLast_concat]
    exact ⟨fun exact _ => exact, fun exact => exact child⟩
  | false =>
    refine iff_of_true (fun path nonempty _ canonical => ?_) fun required => ?_
    · rw [sound, Accepts, pathSegments_joinSegments canonical nonempty]
      cases slash : compiled.hasSlash with
      | true => simp [gitignoreDenotes_of_no_child shape slash child nonempty, child]
      | false =>
        obtain ⟨tokens, single⟩ := shape.basename slash
        obtain ⟨front, last, rfl⟩ := (eq_nil_or_concat path).resolve_left nonempty
        simp [GitignoreDenotes, slash, single, Covers]
    · rw [child] at required
      cases required

/-- Line 1 of the `.gitignore` at the root. -/
def firstLineSource : IgnoreRuleSource :=
  { factId := none, kind := .gitignore, line := some 1, path := some (js ".gitignore")
    profileId := none, sourceUrl := none }

/-- The components of `**/a/**`. -/
def childOfAnyA : List PatternComponent := [.globstar, .tokens [.literal 0x61], .globstar]

/-- `src/**` is right on all paths, and `**/a/**` on those of one segment only. -/
theorem compiledMatches_agrees_iff_src :
    (∃ rule compiled decision,
      makeRule (js "src/**") firstLineSource (js ".") 1 ignoreEngineDefaultLimits =
          .ok (some rule) ∧
        rule.compiled = some compiled ∧ compiled.trailingGlobstarRequiresChild = true ∧
        Decides compiled decision ∧ ∀ n, RightOn compiled decision n) ∧
      ∃ rule decision, makeRule (js "**/a/**") firstLineSource (js ".") 1
            ignoreEngineDefaultLimits = .ok (some rule) ∧
        rule.compiled = some ⟨childOfAnyA, true, true⟩ ∧
        Decides ⟨childOfAnyA, true, true⟩ decision ∧
        ∀ n, RightOn ⟨childOfAnyA, true, true⟩ decision n ↔ n ≤ 1 := by
  constructor
  · obtain ⟨decision, decides, right⟩ := compiledMatches_agrees_iff
      (show makeRule (js "src/**") firstLineSource (js ".") 1 ignoreEngineDefaultLimits =
        .ok (some (ruleOfText (js "src/**") (js "src/**") firstLineSource (js ".") 1)) from rfl)
      rfl
    exact ⟨_, _, decision, rfl, rfl, rfl, decides, fun n =>
      (right n).mpr fun _ => .inl (by decide)⟩
  · obtain ⟨decision, decides, right⟩ := compiledMatches_agrees_iff
      (show makeRule (js "**/a/**") firstLineSource (js ".") 1 ignoreEngineDefaultLimits =
        .ok (some (ruleOfText (js "**/a/**") (js "**/a/**") firstLineSource (js ".") 1)) from rfl)
      (show _ = some ⟨childOfAnyA, true, true⟩ from rfl)
    refine ⟨_, decision, rfl, rfl, decides, fun n => (right n).trans ?_⟩
    have named : Covers (.tokens [.literal 0x61]) [0x61] := ⟨0x61, [], rfl, rfl, rfl⟩
    have unnamed : ¬ Covers (.tokens [.literal 0x61]) [0x62] := by
      rintro ⟨character, rest, points, test, -⟩
      cases points
      cases test
    constructor
    · intro exact
      rcases exact rfl with plain | short | ⟨component, asked, none⟩ | ⟨-, all⟩
      · exact absurd mem_cons_self plain
      · exact short
      · rw [mem_singleton.mp asked] at none
        exact (none _ (canonical_letter 0x61 (.inl rfl)) named).elim
      · exact (unnamed (all [] _ rfl _ mem_cons_self _ (canonical_letter 0x62 (.inr rfl)))).elim
    · exact fun short _ => .inr (.inl short)

/-- `**/a/**` is compiled as it should be; it misses `a/b`, and it matches `x/y/a`. -/
theorem compiledMatches_miscounts_globstar :
    (∃ rule, makeRule (js "**/a/**") firstLineSource (js ".") 1 ignoreEngineDefaultLimits =
        .ok (some rule) ∧ rule.compiled = some ⟨childOfAnyA, true, true⟩) ∧
      (compiledMatches ⟨childOfAnyA, true, true⟩ (js "a/b")
          (WorkBudget.fresh ignoreEngineDefaultLimits fun _ => none)).map Prod.fst = .ok false ∧
      GitignoreDenotes ⟨childOfAnyA, true, true⟩ (pathSegments (js "a/b")) ∧
      (compiledMatches ⟨childOfAnyA, true, true⟩ (js "x/y/a")
          (WorkBudget.fresh ignoreEngineDefaultLimits fun _ => none)).map Prod.fst = .ok true ∧
      ¬ GitignoreDenotes ⟨childOfAnyA, true, true⟩ (pathSegments (js "x/y/a")) := by
  refine ⟨⟨_, rfl, rfl⟩, by decide +kernel, ?_, by decide +kernel, ?_⟩
  · refine ⟨[], [js "a", js "b"], rfl, js "a", [js "b"], rfl, ?_, List.cons_ne_nil _ _⟩
    exact ⟨0x61, [], rfl, rfl, rfl⟩
  · have split : pathSegments (js "x/y/a") = [js "x", js "y", js "a"] := rfl
    rw [split]
    rintro ⟨directories, _, eq, segment, rest, rfl, ⟨character, _, points, test, rfl⟩, nonempty⟩
    have named : character = 0x61 := (beq_iff_eq.mp test).symm
    subst named
    rcases directories with _ | ⟨first, _ | ⟨second, _ | ⟨third, others⟩⟩⟩
    · cases eq
      cases points
    · cases eq
      cases points
    · cases eq
      exact nonempty rfl
    · simp at eq

end IgnoreEngine

end AgentContextLint
