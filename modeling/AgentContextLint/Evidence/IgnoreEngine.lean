import AgentContextLint.Evidence.IgnoreMatching
import AgentContextLint.Evidence.ReadOnlyRepository
import AgentContextLint.Lib.Utf8
import Mathlib.Data.List.Sort

/-!
# The ignore engine

Model of the deciding half of `packages/evidence/src/ignore-engine.ts`: rule precedence
(`matchingRule`), excluded parents (`excludedBy`), the accumulation of rules (`addRule`), the
nested `.gitignore` files and `applyIgnoreRulesWithClock`.

The options come as the snapshot that `snapshotOptions` returns. The steps of the file loop
are `loadIgnoreFile`, behind the test that skips a file below an excluded directory
(`visitIgnoreFile`). `applyIgnoreRulesLoadingEvery` is the same engine without this test, for
comparison only.
-/

namespace AgentContextLint

open Utf16
open RepositoryPath (canonicalizeRepositoryRelativePath joinSegments pathSegments repositoryRoot)
open Except (mapError)

/-- `String.prototype.localeCompare` for one locale: a total order up to equivalence. -/
structure Collation where
  localeCompare : Text → Text → Ordering
  lawful : Std.TransCmp localeCompare

inductive ProfileIgnoreApplicability
  | conditional
  | contradiction
  | knownActive
  | knownInactive
  | unknown
  deriving DecidableEq

inductive ProfileIgnoreEvidence
  | documented
  | documentedVersioned
  | observed
  | sourceDerived

structure ProfileIgnoreFact where
  applicability : ProfileIgnoreApplicability
  clientVersion : Option Text
  evidence : ProfileIgnoreEvidence
  factId : Text
  pattern : Text
  profileId : Text
  reason : Option Text
  retrievedAt : Text
  sourceUrl : Text

structure OptionsSnapshot where
  configurationPatterns : List Text
  limits : IgnoreEngineLimits
  profileFacts : List ProfileIgnoreFact

structure IgnoreEngineProblem where
  code : String
  line : Option Nat
  path : Option RelativePath

/-- What a tracked-file enumeration hands over. -/
structure TrackedFileEnumeration where
  fallback : Bool
  omittedProblems : Nat
  paths : List Text
  problems : List (String × Text)

structure EnumerationSnapshot where
  fallback : Bool
  omittedProblems : Nat
  paths : List RelativePath
  problems : List IgnoreEngineProblem

inductive DecisionCertainty
  | known
  | trackingUncertain

structure IgnoredPathDecision where
  certainty : DecisionCertainty
  path : RelativePath
  ruleId : Text

/-- `certainty` and `trackingCertainty` both follow from `fallback`, `profileCertainty` from
`deferredProfileFacts`. -/
structure IgnoreEngineResult where
  appliedProfileFactIds : List Text
  deferredProfileFacts : List ProfileIgnoreFact
  fallback : Bool
  ignored : List IgnoredPathDecision
  limits : IgnoreEngineLimits
  omittedProblems : Nat
  paths : List RelativePath
  problems : List IgnoreEngineProblem
  profileFacts : List ProfileIgnoreFact
  rules : List IgnoreRule

/-- Everything a run can throw. -/
inductive IgnoreEngineFailure
  | engine (error : IgnoreEngineError)
  | path (error : RepositoryPathError)
  | repository (failure : RepositoryFailure)
  deriving DecidableEq

namespace IgnoreEngine

def fail {α : Type} (code : IgnoreEngineErrorCode) (message operation : String)
    (path : Option RelativePath) : Except IgnoreEngineError α :=
  .error { code, message, operation, path }

/-! ## Enumerated paths -/

/-- The loop over the enumerated paths, with the path before. -/
def snapshotPaths (limits : IgnoreEngineLimits) :
    Option Text → List Text → Except IgnoreEngineError (List RelativePath)
  | _, [] => .ok []
  | previous, candidate :: rest =>
    if candidate.length > 16384 ∨ Utf8.byteLength candidate > 16384 then
      fail .invalidInput "enumerated path is not a string" "validate-enumeration" none
    else match canonicalizeRepositoryRelativePath candidate .posix with
      | .error _ =>
        fail .invalidInput "enumerated path is not canonical" "validate-enumeration" none
      | .ok canonical =>
        if canonical ≠ candidate ∨ canonical = repositoryRoot ∨
            (pathSegments canonical).length > limits.maximumPathDepth ∨
            ∃ before ∈ previous, ¬ before < canonical then
          fail .invalidInput
            "enumerated paths must be canonical, unique, sorted, and bounded"
            "validate-enumeration" none
        else (canonical :: ·) <$> snapshotPaths limits (some canonical) rest

def snapshotProblem (problem : String × Text) : Except IgnoreEngineError IgnoreEngineProblem :=
  if problem.1.length = 0 ∨ problem.1.length > 256 then
    fail .invalidInput "enumeration problem is invalid" "validate-enumeration-problems" none
  else match canonicalizeRepositoryRelativePath problem.2 .posix with
    | .error _ =>
      fail .invalidInput "enumeration problem path is invalid" "validate-enumeration-problems"
        none
    | .ok canonical =>
      if canonical ≠ problem.2 then
        fail .invalidInput "enumeration problem path is not canonical"
          "validate-enumeration-problems" none
      else .ok { code := problem.1, line := none, path := some canonical }

def snapshotArray {α : Type} (values : List α) (maximum : Nat) (operation : String) :
    Except IgnoreEngineError (List α) :=
  if values.length > maximum then fail .invalidInput "ignore-engine array is invalid" operation none
  else .ok values

def snapshotEnumeration (enumeration : TrackedFileEnumeration) (limits : IgnoreEngineLimits) :
    Except IgnoreEngineError EnumerationSnapshot := do
  let candidates ← snapshotArray enumeration.paths limits.maximumPaths "validate-enumeration-paths"
  let paths ← snapshotPaths limits none candidates
  let problemValues ←
    snapshotArray enumeration.problems limits.maximumPaths "validate-enumeration-problems"
  let problems ← problemValues.mapM snapshotProblem
  return {
    fallback := enumeration.fallback, omittedProblems := enumeration.omittedProblems, paths, problems }

/-! ## Deciding a path -/

/-- The path behind the directory `base`, when it lies below it. -/
def relativeToBase (path base : RelativePath) : Option Text :=
  if base = repositoryRoot then some path
  else if (base ++ [0x2f]).isPrefixOf path then some (path.drop (base.length + 1))
  else none

/-- Whether `matchingRule` takes a rule that matches in place of the one selected so far. -/
def supersedes (rule : InternalRule) : Option InternalRule → Bool
  | none => true
  | some selected =>
    rule.sourceRank > selected.sourceRank ||
      (rule.sourceRank == selected.sourceRank && rule.sourceSequence > selected.sourceSequence)

/-- The loop of `matchingRule`, with the rule selected so far. -/
def matchingRuleFrom (path : RelativePath) (directory : Bool) :
    Option InternalRule → List InternalRule → Budgeted (Option InternalRule)
  | selected, [] => pure selected
  | selected, rule :: rest => do
    consume 1
    match rule.compiled, relativeToBase path rule.rule.basePath with
    | some compiled, some relative =>
      if rule.rule.directoryOnly && !directory then matchingRuleFrom path directory selected rest
      else if ← compiledMatches compiled relative then
        matchingRuleFrom path directory (if supersedes rule selected then some rule else selected)
          rest
      else matchingRuleFrom path directory selected rest
    | _, _ => matchingRuleFrom path directory selected rest

def matchingRule (path : RelativePath) (directory : Bool) (rules : List InternalRule) :
    Budgeted (Option InternalRule) :=
  matchingRuleFrom path directory none rules

/-- `rule !== undefined && !rule.rule.negative` -/
def positive (rule : Option InternalRule) : Option InternalRule :=
  rule.filter fun rule => !rule.rule.negative

/-- The loop of `excludedBy` over the directories, from the outermost one. -/
def excludedDirectory (rules : List InternalRule) :
    List RelativePath → Budgeted (Option InternalRule)
  | [] => pure none
  | directory :: rest => do
    consume (max 1 directory.length)
    match positive (← matchingRule directory true rules) with
    | some rule => pure (some rule)
    | none => excludedDirectory rules rest

/-- `components.slice(0, depth).join("/")` for the depths up to `count`. -/
def directoriesOf (components : List Text) (count : Nat) : List RelativePath :=
  (List.range count).map fun depth => joinSegments (components.take (depth + 1))

def excludedBy (path : RelativePath) (file : Bool) (rules : List InternalRule) :
    Budgeted (Option InternalRule) := do
  let components := pathSegments path
  let directoryCount := if file then components.length - 1 else components.length
  match ← excludedDirectory rules (directoriesOf components directoryCount) with
  | some rule => pure (some rule)
  | none => if file then positive <$> matchingRule path false rules else pure none

/-! ## Accumulating rules -/

/-- The variables that `addRule` shares with the loops around it. -/
structure RuleTable where
  rules : List InternalRule
  problems : List IgnoreEngineProblem
  omittedProblems : Nat
  patternBytes : Nat
  sourceSequence : Nat

variable (limits : IgnoreEngineLimits)

def recordProblem (problem : IgnoreEngineProblem) (table : RuleTable) : RuleTable :=
  if table.problems.length < limits.maximumProblems then
    { table with problems := table.problems ++ [problem] }
  else { table with omittedProblems := table.omittedProblems + 1 }

def consumePatternBytes (amount : Nat) (table : RuleTable) : Except IgnoreEngineError RuleTable :=
  if table.patternBytes + amount > limits.maximumPatternBytes then
    fail .limitExceeded "ignore pattern resource limit was exceeded" "pattern-limit" none
  else .ok { table with patternBytes := table.patternBytes + amount }

/-- One call of `addRule`. -/
structure RuleLine where
  raw : Text
  source : IgnoreRuleSource
  base : RelativePath
  countBytes : Bool

variable (table : RuleTable)

/-- `if (countBytes) consumePatternBytes(…)` -/
def countLine (line : RuleLine) : Except IgnoreEngineError RuleTable :=
  if line.countBytes then consumePatternBytes limits (Utf8.byteLength line.raw) table else .ok table

def addRule (line : RuleLine) : Except IgnoreEngineError RuleTable := do
  let table ← countLine limits table line
  match ← makeRule line.raw line.source line.base (table.sourceSequence + 1) limits with
  | none => return table
  | some rule =>
    if table.rules.length ≥ limits.maximumPatterns then
      fail .limitExceeded "ignore pattern resource limit was exceeded" "pattern-limit" none
    else
      let table := { table with
        rules := table.rules ++ [rule], sourceSequence := table.sourceSequence + 1 }
      return if rule.rule.valid then table
        else recordProblem limits
          { code := "INVALID_PATTERN_NEVER_MATCHES", path := line.source.path
            line := line.source.line } table

def addRules (lines : List RuleLine) : Except IgnoreEngineError RuleTable :=
  lines.foldlM (addRule limits) table

/-! ## Rules of the root -/

/-- `BUILT_IN_IGNORE_PATTERNS` -/
def builtInIgnorePatterns : List Text :=
  [".cache/", ".dart_tool/", ".git/", ".gradle/", ".next/", ".nuxt/", ".nx/", ".pnpm/", ".turbo/",
    ".venv/", ".yarn/cache/", "DerivedData/", "Pods/", "__pycache__/", "build/", "coverage/",
    "dist/", "node_modules/", "target/", "vendor/", "venv/"].map js

/-- The lines of a list of patterns that apply at the root, counted from 1. -/
def rootLines (kind : IgnoreRuleSourceKind) (patterns : List Text) : List RuleLine :=
  patterns.zipIdx.map fun (pattern, index) => {
    raw := pattern, base := repositoryRoot, countBytes := true
    source := {
      factId := none, kind, line := some (index + 1), path := none, profileId := none
      sourceUrl := none } }

def profileLine (fact : ProfileIgnoreFact) : RuleLine where
  raw := fact.pattern
  base := repositoryRoot
  countBytes := true
  source := {
    factId := some fact.factId, kind := .profile, line := none, path := none
    profileId := some fact.profileId, sourceUrl := some fact.sourceUrl }

def appliedProfileFacts (options : OptionsSnapshot) : List ProfileIgnoreFact :=
  options.profileFacts.filter (·.applicability = .knownActive)

def deferredProfileFacts (options : OptionsSnapshot) : List ProfileIgnoreFact :=
  options.profileFacts.filter fun fact => fact.applicability = .conditional ∨
    fact.applicability = .contradiction ∨ fact.applicability = .unknown

/-- The lines of the loops before the `.gitignore` files. -/
def suppliedLines (options : OptionsSnapshot) : List RuleLine :=
  rootLines .builtIn builtInIgnorePatterns ++
    rootLines .configuration options.configurationPatterns ++
      (appliedProfileFacts options).map profileLine

/-! ## Ignore files -/

def fatalFacadeError : RepositoryFailure → Bool
  | .readOnly error => error.code ∈ [
      ReadOnlyRepositoryErrorCode.aborted, .concurrentOperation, .deadlineExceeded,
      .invalidOptions, .invalidSelection, .limitExceeded, .pathChanged]
  | .other => false

/-- `text.replaceAll("\r\n", "\n").replaceAll("\n", "")` -/
def withoutLineBreaks : Text → Text
  | [] => []
  | [c] => if c = 0x0a then [] else [c]
  | c :: d :: rest =>
    if c = 0x0d ∧ d = 0x0a then withoutLineBreaks rest
    else if c = 0x0a then withoutLineBreaks (d :: rest)
    else c :: withoutLineBreaks (d :: rest)

def decodeIgnoreFile (bytes : List UInt8) (path : RelativePath) : Except IgnoreEngineError Text :=
  let malformed := fail .malformedInput "ignore file is not safe UTF-8 text" "decode-ignore-file"
    (some path)
  match Utf8.decode bytes with
  | none => malformed
  | some text =>
    if text.head? = some 0xfeff ∨ unsafeText (withoutLineBreaks text) then malformed else .ok text

def isIgnoreFile (path : RelativePath) : Bool :=
  path == js ".gitignore" || (js "/.gitignore").isSuffixOf path

def pathDepth (path : RelativePath) : Nat := (pathSegments path).length

/-- Outer directories first, and in one depth as the locale has them. -/
def compareIgnoreFiles (collation : Collation) : Text → Text → Ordering :=
  compareLex (compareOn pathDepth) collation.localeCompare

variable (collation : Collation)

def ignoreFiles (paths : List RelativePath) : List RelativePath :=
  (paths.filter (isIgnoreFile ·)).insertionSort fun left right =>
    (compareIgnoreFiles collation left right).isLE

def baseOfIgnoreFile (path : RelativePath) : Except RepositoryPathError RelativePath :=
  if (0x2f : CodeUnit) ∈ path then
    canonicalizeRepositoryRelativePath
      (path.reverse.dropWhile (· ≠ 0x2f)).tail.reverse .posix
  else canonicalizeRepositoryRelativePath repositoryRoot .posix

/-- `rawLine.endsWith("\r") ? rawLine.slice(0, -1) : rawLine` -/
def dropCarriageReturn (line : Text) : Text :=
  if line.getLast? = some 0x0d then line.dropLast else line

variable (path base : RelativePath)

def ignoreFileLines (text : Text) : List RuleLine :=
  (text.splitOn 0x0a).zipIdx.map fun (line, index) => {
    raw := dropCarriageReturn line, base, countBytes := false
    source := {
      factId := none, kind := .gitignore, line := some (index + 1), path := some path
      profileId := none, sourceUrl := some (js "https://git-scm.com/docs/gitignore/2.55.0") } }

/-- The `catch` of the two repository calls. -/
def unavailableIgnoreFile (path : RelativePath) (cause : RepositoryFailure)
    (table : RuleTable) : Except IgnoreEngineFailure RuleTable :=
  if fatalFacadeError cause then .error (.repository cause)
  else
    let code := match cause with
      | .readOnly error => error.code.text
      | .other => "IGNORE_FILE_UNAVAILABLE"
    .ok (recordProblem limits { code, line := none, path := some path } table)

def ignoreFileTooLarge {α : Type} (path : RelativePath) : Except IgnoreEngineFailure α :=
  .error (.engine {
    code := .limitExceeded, message := "ignore file byte limit was exceeded"
    operation := "ignore-file-limit", path := some path })

/-- The rest of a round once the file is read. -/
def addIgnoreFile (inspected : ReadOnlyRepositoryEntry) (file : ReadOnlyRepositoryFile)
    (table : RuleTable) : Except IgnoreEngineFailure RuleTable :=
  if file.linkDepth ≠ 0 ∨ file.identity.device ≠ inspected.identity.device ∨
      file.identity.inode ≠ inspected.identity.inode then
    .error (.repository (.readOnly {
      code := .pathChanged, message := "ignore file identity changed before read"
      operation := "ignore-file-race", path := some path, causeCode := none }))
  else if file.bytes.length > limits.maximumIgnoreFileBytes then ignoreFileTooLarge path
  else mapError .engine do
    let table ← consumePatternBytes limits file.bytes.length table
    let text ← decodeIgnoreFile file.bytes path
    addRules limits table (ignoreFileLines path base text)

/-- The rest of a round of the file loop, behind the test for excluded directories. -/
def loadIgnoreFile (repository : ReadOnlyRepository) (path base : RelativePath)
    (table : RuleTable) : Except IgnoreEngineFailure RuleTable :=
  match repository.inspect path with
  | .error cause => unavailableIgnoreFile limits path cause table
  | .ok inspected =>
    if inspected.type ≠ .file then
      .ok (recordProblem limits
        { code := "IGNORE_FILE_UNSAFE_TYPE", line := none, path := some path } table)
    else if inspected.linkDepth ≠ 0 then
      .ok (recordProblem limits
        { code := "IGNORE_FILE_LINK_SKIPPED", line := none, path := some path } table)
    else if inspected.size > limits.maximumIgnoreFileBytes then ignoreFileTooLarge path
    else match repository.readFile path with
      | .error cause => unavailableIgnoreFile limits path cause table
      | .ok file => addIgnoreFile limits path base inspected file table

/-! ## The engine -/

/-- A run under a budget. -/
abbrev Engine := StateT WorkBudget (Except IgnoreEngineFailure)

def budgeted {α : Type} (x : Budgeted α) : Engine α := fun budget => (x budget).mapError .engine

abbrev FileRound := RelativePath → RuleTable → Engine RuleTable

/-- The rule that excludes the directory of an ignore file, never the root. -/
def excludedBase (base : RelativePath) (rules : List InternalRule) :
    Budgeted (Option InternalRule) :=
  if base ≠ repositoryRoot then excludedBy base false rules else pure none

/-- One round of the loop over the ignore files. -/
def visitIgnoreFile (repository : ReadOnlyRepository) : FileRound :=
  fun path table => do
    budgeted checkpoint
    let base ← liftM (mapError IgnoreEngineFailure.path (baseOfIgnoreFile path))
    let excluded ← budgeted (excludedBase base table.rules)
    if excluded.isSome then return table
    else liftM (loadIgnoreFile limits repository path base table)

/-- For comparison: the round of an engine that loads every ignore file. -/
def visitEveryIgnoreFile (repository : ReadOnlyRepository) : FileRound :=
  fun path table => do
    budgeted checkpoint
    let base ← liftM (mapError IgnoreEngineFailure.path (baseOfIgnoreFile path))
    liftM (loadIgnoreFile limits repository path base table)

/-- The loop over the enumerated paths. -/
def decidePaths (fallback : Bool) (rules : List InternalRule) :
    List RelativePath →
      Budgeted (List RelativePath × List IgnoredPathDecision)
  | [] => pure ([], [])
  | path :: rest => do
    consume 1
    let rule ← excludedBy path true rules
    let (included, ignored) ← decidePaths fallback rules rest
    match rule with
    | none => return (path :: included, ignored)
    | some rule =>
      let certainty :=
        if fallback ∧ rule.rule.source.kind = .gitignore then .trackingUncertain else .known
      return (included, { certainty, path, ruleId := rule.rule.id } :: ignored)

def loadIgnoreFiles (limits : IgnoreEngineLimits) (round : FileRound) (input : EnumerationSnapshot)
    (table : RuleTable) : Engine RuleTable :=
  if input.fallback then
    let files := ignoreFiles collation input.paths
    if files.length > limits.maximumIgnoreFiles then
      liftM (mapError IgnoreEngineFailure.engine (fail .limitExceeded
        "ignore file count limit was exceeded" "ignore-file-limit" none (α := RuleTable)))
    else files.foldlM (fun table path => round path table) table
  else pure table

def compareProblems (left right : IgnoreEngineProblem) : Ordering :=
  let leftPath := left.path.getD []
  let rightPath := right.path.getD []
  if leftPath = rightPath then compare (left.line.getD 0) (right.line.getD 0)
  else collation.localeCompare leftPath rightPath

/-- A run with the given round of the file loop. -/
def applyIgnoreRulesWith (round : IgnoreEngineLimits → ReadOnlyRepository → FileRound)
    (interruption : Nat → Option IgnoreEngineError) (repository : ReadOnlyRepository)
    (enumeration : TrackedFileEnumeration) (options : OptionsSnapshot) :
    Except IgnoreEngineFailure IgnoreEngineResult := do
  let limits := options.limits
  let input ← mapError .engine (snapshotEnumeration enumeration limits)
  let ((), budget) ← budgeted checkpoint (WorkBudget.fresh limits interruption)
  let start : RuleTable := {
    rules := [], patternBytes := 0, sourceSequence := 0
    problems := input.problems.take limits.maximumProblems
    omittedProblems := input.omittedProblems + (input.problems.length - limits.maximumProblems) }
  let supplied ← mapError .engine (addRules limits start (suppliedLines options))
  let (table, budget) ←
    loadIgnoreFiles collation limits (round limits repository) input supplied budget
  let ((included, ignored), budget) ←
    budgeted (decidePaths input.fallback table.rules input.paths) budget
  let _ ← budgeted checkpoint budget
  return {
    appliedProfileFactIds := (appliedProfileFacts options).map (·.factId)
    deferredProfileFacts := deferredProfileFacts options
    fallback := input.fallback
    ignored, limits
    omittedProblems := table.omittedProblems
    paths := included
    problems := table.problems.insertionSort fun left right =>
      (compareProblems collation left right).isLE
    profileFacts := options.profileFacts
    rules := table.rules.map (·.rule) }

variable (interruption : Nat → Option IgnoreEngineError)

def applyIgnoreRulesWithClock (repository : ReadOnlyRepository)
    (enumeration : TrackedFileEnumeration) (options : OptionsSnapshot) :
    Except IgnoreEngineFailure IgnoreEngineResult :=
  applyIgnoreRulesWith collation visitIgnoreFile interruption repository enumeration options

def applyIgnoreRulesLoadingEvery (repository : ReadOnlyRepository)
    (enumeration : TrackedFileEnumeration) (options : OptionsSnapshot) :
    Except IgnoreEngineFailure IgnoreEngineResult :=
  applyIgnoreRulesWith collation visitEveryIgnoreFile interruption repository enumeration options

end IgnoreEngine

end AgentContextLint
