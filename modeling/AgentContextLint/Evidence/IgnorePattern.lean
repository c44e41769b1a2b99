import AgentContextLint.Core.RepositoryPath

/-!
# Ignore patterns

Model of the pattern half of `packages/evidence/src/ignore-engine.ts`: from the text of
one ignore line to a compiled rule.

The loops of the source run over an index into the text. Here they run over what is
left of the text, with the index increments as the part of it that is passed on;
`compileTokens` keeps a count of characters to pass over, for a class token that was
read ahead.
-/

namespace AgentContextLint

open Utf16

structure IgnoreEngineLimits where
  maximumDurationMs : Nat
  maximumIgnoreFileBytes : Nat
  maximumIgnoreFiles : Nat
  maximumMatchWork : Nat
  maximumPathDepth : Nat
  maximumPaths : Nat
  maximumPatternBytes : Nat
  maximumPatternLength : Nat
  maximumPatterns : Nat
  maximumProblems : Nat

/-- `IGNORE_ENGINE_DEFAULT_LIMITS` -/
def ignoreEngineDefaultLimits : IgnoreEngineLimits where
  maximumDurationMs := 30000
  maximumIgnoreFileBytes := 65536
  maximumIgnoreFiles := 1024
  maximumMatchWork := 50000000
  maximumPathDepth := 128
  maximumPaths := 100000
  maximumPatternBytes := 4194304
  maximumPatternLength := 4096
  maximumPatterns := 10000
  maximumProblems := 256

inductive IgnoreEngineErrorCode
  | aborted
  | deadlineExceeded
  | invalidInput
  | invalidOptions
  | limitExceeded
  | malformedInput
  deriving DecidableEq

structure IgnoreEngineError where
  code : IgnoreEngineErrorCode
  message : String
  operation : String
  path : Option RelativePath
  deriving DecidableEq

inductive IgnoreRuleSourceKind
  | builtIn
  | configuration
  | gitignore
  | profile
  deriving DecidableEq

structure IgnoreRuleSource where
  factId : Option Text
  kind : IgnoreRuleSourceKind
  line : Option Nat
  path : Option RelativePath
  profileId : Option Text
  sourceUrl : Option Text

structure IgnoreRule where
  basePath : RelativePath
  directoryOnly : Bool
  id : Text
  negative : Bool
  pattern : Text
  precedence : Nat
  source : IgnoreRuleSource
  valid : Bool

/-- A character is its code point; the `ranges` array of the source is a list of pairs. -/
inductive CharacterToken
  | any
  | class (inverted : Bool) (ranges : List (Nat × Nat))
  | literal (value : Nat)
  | star
  deriving DecidableEq

inductive PatternComponent
  | globstar
  | tokens (tokens : List CharacterToken)
  deriving DecidableEq

structure CompiledPattern where
  components : List PatternComponent
  hasSlash : Bool
  trailingGlobstarRequiresChild : Bool

structure InternalRule where
  compiled : Option CompiledPattern
  rule : IgnoreRule
  sourceRank : Nat
  sourceSequence : Nat

namespace IgnoreEngine

variable {basePath : RelativePath} {compiled : CompiledPattern} {sourceSequence : Nat}
  {source : IgnoreRuleSource}

/-! ## Pattern text -/

def isUnsafeUnit (unit : CodeUnit) : Bool :=
  let n := unit.toNat
  n ≤ 0x1f || (0x7f ≤ n && n ≤ 0x9f) || (0xd800 ≤ n && n ≤ 0xdfff) || n == 0xfeff || n == 0x061c ||
    n == 0x200e || n == 0x200f || (0x202a ≤ n && n ≤ 0x202e) || (0x2066 ≤ n && n ≤ 0x2069)

def unsafeText (value : Text) : Bool := value.any isUnsafeUnit

/-- `stripTrailingSpaces` on the reversed text. Behind an odd run of backslashes the last
space is kept and the run loses its first one. -/
def stripLeadingSpacesOfReverse : Text → Text
  | [] => []
  | c :: rest =>
    if c = 0x20 then
      let slashes := (rest.takeWhile (· == 0x5c)).length
      if slashes % 2 = 1 then (c :: rest).eraseIdx slashes
      else stripLeadingSpacesOfReverse rest
    else c :: rest

def stripTrailingSpaces (value : Text) : Text :=
  (stripLeadingSpacesOfReverse value.reverse).reverse

/-- The loop of `patternComponents`, with the component read so far. -/
def patternComponentsFrom (component : Text) : Text → List Text
  | [] => [component]
  | [c] => if c = 0x2f then [component, []] else [component ++ [c]]
  | c :: d :: rest =>
    if c = 0x5c ∧ d = 0x2f then component :: patternComponentsFrom [] rest
    else if c = 0x2f then component :: patternComponentsFrom [] (d :: rest)
    else patternComponentsFrom (component ++ [c]) (d :: rest)

def patternComponents (value : Text) : Option (List Text) :=
  let components := patternComponentsFrom [] value
  if components.any List.isEmpty then none else some components

def normalizeEscapedSeparators : Text → Text
  | [] => []
  | [c] => [c]
  | c :: d :: rest =>
    if c = 0x5c ∧ d = 0x2f then 0x2f :: normalizeEscapedSeparators rest
    else c :: normalizeEscapedSeparators (d :: rest)

/-! ## Compilation -/

/-- The loop of `compileClass` that collects the values up to the closing bracket, with the
number of characters read. -/
def classValues (values : List Nat) (consumed : Nat) : List Nat → Option (List Nat × Nat)
  | [] => none
  | [c] =>
    if c = 0x5d ∧ values ≠ [] then some (values, consumed + 1) else none
  | c :: d :: rest =>
    if c = 0x5d ∧ values ≠ [] then some (values, consumed + 1)
    else if c = 0x5c then classValues (values ++ [d]) (consumed + 2) rest
    else classValues (values ++ [c]) (consumed + 1) (d :: rest)

def classRanges : List Nat → List (Nat × Nat)
  | [] => []
  | [a] => [(a, a)]
  | [a, b] => [(a, a), (b, b)]
  | a :: b :: c :: rest =>
    if b = 0x2d then (a, c) :: classRanges rest else (a, a) :: classRanges (b :: c :: rest)

/-- `compileClass` on the characters behind the opening bracket: the token and how many of
them it takes, or nothing when the class is not closed. -/
def compileClass (characters : List Nat) : Option (CharacterToken × Nat) :=
  let inverted := characters.head? == some 0x21 || characters.head? == some 0x5e
  let start := if inverted then 1 else 0
  let body := characters.drop start
  let closesFirst := body.head? == some 0x5d
  let values := if closesFirst then [0x5d] else []
  let consumed := if closesFirst then start + 1 else start
  (classValues values consumed (characters.drop consumed)).map fun (values, consumed) =>
    (.class inverted (classRanges values), consumed)

/-- The loop of `compileComponent`. `skip` characters were read ahead; `inStar` says that
the run of stars of the last token is still going on. -/
def compileTokens : (skip : Nat) → (inStar : Bool) → List Nat → Option (List CharacterToken)
  | _, _, [] => some []
  | skip + 1, _, _ :: rest => compileTokens skip false rest
  | 0, inStar, character :: rest =>
    if character = 0x5c then
      rest.head?.bind fun escaped => (compileTokens 1 false rest).map (.literal escaped :: ·)
    else if character = 0x2a then
      if inStar then compileTokens 0 true rest
      else (compileTokens 0 true rest).map (.star :: ·)
    else if character = 0x3f then (compileTokens 0 false rest).map (.any :: ·)
    else if character = 0x5b then
      match compileClass rest with
      | none => (compileTokens 0 false rest).map (.literal 0x5b :: ·)
      | some (token, consumed) => (compileTokens consumed false rest).map (token :: ·)
    else (compileTokens 0 false rest).map (.literal character :: ·)

def compileComponent (value : Text) : Option (List CharacterToken) :=
  compileTokens 0 false (codePoints value)

/-- One component of `compilePattern`. -/
def compilePatternComponent (hasSlash : Bool) (component : Text) : Option PatternComponent :=
  if hasSlash ∧ component = js "**" then some .globstar
  else (compileComponent component).map .tokens

variable (value : Text)

def compilePattern (hasSlash : Bool) : Option CompiledPattern := do
  let rawComponents ← patternComponents value
  let components ← rawComponents.mapM (compilePatternComponent hasSlash)
  return {
    components, hasSlash
    trailingGlobstarRequiresChild :=
      hasSlash && decide (components.length > 1) && components.getLast? == some .globstar }

/-! ## Rules -/

def safePatternText (limits : IgnoreEngineLimits) : Except IgnoreEngineError Unit :=
  if unsafeText value || decide ((codePoints value).length > limits.maximumPatternLength) ||
      decide ((RepositoryPath.pathSegments value).length > limits.maximumPathDepth) then
    .error {
      code := .malformedInput, message := "ignore pattern contains unsafe or excessive text"
      operation := "parse-pattern", path := none }
  else .ok ()

/-- `SOURCE_RANK` -/
def sourceRank : IgnoreRuleSourceKind → Nat
  | .gitignore => 1
  | .profile => 2
  | .configuration => 3
  | .builtIn => 4

def kindText : IgnoreRuleSourceKind → Text
  | .gitignore => js "gitignore"
  | .profile => js "profile"
  | .configuration => js "configuration"
  | .builtIn => js "built-in"

def ruleId (source : IgnoreRuleSource) (sourceSequence : Nat) : Text :=
  kindText source.kind ++ js ":" ++ (source.path.orElse fun _ => source.factId).getD (js "root") ++
    js ":" ++ js (toString (source.line.getD sourceSequence))

/-- `value.endsWith("/") ? value.slice(0, -1) : value`, and whether it ended so. -/
def dropTrailingSlash (value : Text) : Bool × Text :=
  if value.getLast? = some 0x2f then (true, value.dropLast) else (false, value)

/-- `value.startsWith(prefix) ? value.slice(1) : value`, and whether it started so. -/
def dropLeading (unit : CodeUnit) (value : Text) : Bool × Text :=
  if value.head? = some unit then (true, value.drop 1) else (false, value)

/-- The rule `makeRule` builds from the stripped text of a line that is neither blank nor a
comment. -/
def ruleOfText (rawValue stripped : Text) (source : IgnoreRuleSource)
    (basePath : RelativePath) (sourceSequence : Nat) : InternalRule :=
  let negation := dropLeading 0x21 stripped
  let directory := dropTrailingSlash (normalizeEscapedSeparators negation.2)
  let anchor := dropLeading 0x2f directory.2
  let value := anchor.2
  let hasSlash := anchor.1 || value.contains 0x2f
  let compiled := if value = [] then none else compilePattern value hasSlash
  let rank := sourceRank source.kind
  { compiled
    rule := {
      basePath, source
      directoryOnly := directory.1
      id := ruleId source sourceSequence
      negative := negation.1
      pattern := rawValue
      precedence := rank * 1000000 + sourceSequence
      valid := compiled.isSome }
    sourceRank := rank
    sourceSequence }

def makeRule (rawValue : Text) (source : IgnoreRuleSource) (basePath : RelativePath)
    (sourceSequence : Nat) (limits : IgnoreEngineLimits) :
    Except IgnoreEngineError (Option InternalRule) := do
  safePatternText rawValue limits
  let stripped := stripTrailingSpaces rawValue
  return if stripped = [] ∨ stripped.head? = some 0x23 then none
    else some (ruleOfText rawValue stripped source basePath sourceSequence)

/-- The stripped text of a pattern without its marks for negation, directories and the root. -/
def unmarkedText (stripped : Text) : Text :=
  (dropLeading 0x2f
    (dropTrailingSlash (normalizeEscapedSeparators (dropLeading 0x21 stripped).2)).2).2

def validSuppliedPattern (limits : IgnoreEngineLimits) : Bool :=
  match safePatternText value limits with
  | .error _ => false
  | .ok _ =>
    let stripped := stripTrailingSpaces value
    if stripped = [] ∨ stripped.head? = some 0x23 then false
    else
      let normalized := unmarkedText stripped
      if normalized = [] then false
      else (compilePattern normalized (normalized.contains 0x2f)).isSome

/-- A compiled rule was compiled from a text whose separators were counted. -/
theorem ruleOfText_compiled {rawValue stripped : Text}
    (some : (ruleOfText rawValue stripped source basePath sourceSequence).compiled = some compiled) :
    ∃ anchored value,
      compilePattern value (anchored || value.contains 0x2f) = Option.some compiled := by
  unfold ruleOfText at some
  dsimp only at some
  split at some
  · cases some
  · exact ⟨_, _, some⟩

theorem makeRule_eq_ok {rawValue : Text} {limits : IgnoreEngineLimits} {rule : InternalRule}
    (made : makeRule rawValue source basePath sourceSequence limits = .ok (some rule)) :
    rule = ruleOfText rawValue (stripTrailingSpaces rawValue) source basePath sourceSequence := by
  obtain ⟨_, -, made⟩ := Metered.bind_eq_ok.mp made
  dsimp only at made
  split at made <;> cases made
  rfl

/-- A text without a separator is one component. -/
theorem patternComponentsFrom_of_not_mem (component value : Text)
    (noSlash : (0x2f : CodeUnit) ∉ value) :
    patternComponentsFrom component value = [component ++ value] := by
  induction component, value using patternComponentsFrom.induct with
  | case1 component => simp [patternComponentsFrom]
  | case2 component => simp at noSlash
  | case3 component c notSlash => simp [patternComponentsFrom, notSlash]
  | case4 component c d rest escaped => simp [escaped.2] at noSlash
  | case5 component d rest => simp at noSlash
  | case6 component c d rest notEscaped notSlash ih =>
    have rest : (0x2f : CodeUnit) ∉ d :: rest :=
      fun member => noSlash (List.mem_cons_of_mem c member)
    simp [patternComponentsFrom, notEscaped, notSlash, ih rest]

theorem patternComponentsFrom_ne_nil (component value : Text) :
    patternComponentsFrom component value ≠ [] := by
  induction component, value using patternComponentsFrom.induct with
  | case1 component => exact List.cons_ne_nil _ _
  | case2 component => exact List.cons_ne_nil _ _
  | case3 component c notSlash => simp [patternComponentsFrom, notSlash]
  | case4 component c d rest escaped => simp [patternComponentsFrom, escaped]
  | case5 component d rest => simp [patternComponentsFrom]
  | case6 component c d rest notEscaped notSlash ih =>
    simpa [patternComponentsFrom, notEscaped, notSlash] using ih

theorem compilePattern_eq_some {value : Text} {hasSlash : Bool}
    (made : compilePattern value hasSlash = some compiled) :
    compiled.hasSlash = hasSlash ∧ compiled.components ≠ [] ∧
      compiled.trailingGlobstarRequiresChild = (hasSlash &&
        decide (compiled.components.length > 1) && compiled.components.getLast? == some .globstar) ∧
      (hasSlash = false → (0x2f : CodeUnit) ∉ value →
        ∃ component, compiled.components = [.tokens component]) := by
  obtain ⟨raw, split, made⟩ := Option.bind_eq_some_iff.mp made
  obtain ⟨components, compiledAll, made⟩ := Option.bind_eq_some_iff.mp made
  cases made
  have rawShape : raw = patternComponentsFrom [] value := by
    unfold patternComponents at split
    dsimp only at split
    split at split <;> cases split
    rfl
  refine ⟨rfl, ?_, rfl, fun noSlash single => ?_⟩
  · rintro rfl
    exact patternComponentsFrom_ne_nil [] value
      (rawShape.symm.trans (List.forall₂_nil_right_iff.mp (Metered.mapM_eq_some.mp compiledAll)))
  · subst noSlash
    rw [rawShape, patternComponentsFrom_of_not_mem [] value single, List.nil_append] at compiledAll
    cases compiles : compileComponent value with
    | none => simp [compilePatternComponent, compiles] at compiledAll
    | some component =>
      simp [compilePatternComponent, compiles] at compiledAll
      exact ⟨component, compiledAll.symm⟩

/-! ## Supplied patterns -/

theorem isSome_mapM {α β : Type} (f : α → Option β) (xs : List α) :
    (xs.mapM f).isSome = xs.all fun x => (f x).isSome := by
  induction xs with
  | nil => rfl
  | cons x xs ih =>
    rw [List.mapM_cons, List.all_cons, ← ih]
    cases f x with
    | none => rfl
    | some y => cases xs.mapM f <;> rfl

/-- A globstar compiles as a run of stars, too. -/
theorem isSome_compilePattern (hasSlash : Bool) : (compilePattern value hasSlash).isSome =
      ((patternComponents value).any fun components =>
        components.all fun component => (compileComponent component).isSome) := by
  have component : ∀ component, (compilePatternComponent hasSlash component).isSome =
      (compileComponent component).isSome := by
    intro component
    unfold compilePatternComponent
    split_ifs with globstar
    · rw [globstar.2]
      decide
    · exact Option.isSome_map
  unfold compilePattern
  cases patternComponents value with
  | none => rfl
  | some components =>
    rw [Option.any_some, ← List.all_congr rfl component, ← isSome_mapM]
    cases h : components.mapM (compilePatternComponent hasSlash) <;> simp [h]

theorem isSome_compiled (rawValue stripped : Text) :
    (ruleOfText rawValue stripped source basePath sourceSequence).compiled.isSome =
      if unmarkedText stripped = [] then false
      else (compilePattern (unmarkedText stripped) ((unmarkedText stripped).contains 0x2f)).isSome := by
  unfold ruleOfText
  dsimp only
  rw [← unmarkedText]
  split_ifs
  · rfl
  · rw [isSome_compilePattern, isSome_compilePattern]

/-- A supplied pattern is valid exactly if the rule that is made of it is compiled. -/
theorem validSuppliedPattern_iff (value : Text) (source : IgnoreRuleSource)
    (basePath : RelativePath) (sourceSequence : Nat) (limits : IgnoreEngineLimits) :
    validSuppliedPattern value limits = true ↔
      ∃ rule, makeRule value source basePath sourceSequence limits = .ok (some rule) ∧
        rule.compiled.isSome = true := by
  unfold validSuppliedPattern makeRule
  cases safePatternText value limits with
  | error e => exact ⟨nofun, fun ⟨_, made, _⟩ => by cases made⟩
  | ok _ =>
    dsimp only [bind, Except.bind, pure, Except.pure]
    by_cases unused : stripTrailingSpaces value = [] ∨ (stripTrailingSpaces value).head? = some 0x23
    · rw [if_pos unused, if_pos unused]
      exact ⟨nofun, fun ⟨_, made, _⟩ => by cases made⟩
    · rw [if_neg unused, if_neg unused, ← isSome_compiled value]
      constructor
      · exact fun compiled => ⟨_, rfl, compiled⟩
      · rintro ⟨rule, made, compiled⟩
        cases made
        exact compiled

end IgnoreEngine

end AgentContextLint
