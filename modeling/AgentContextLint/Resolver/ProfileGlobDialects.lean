import AgentContextLint.Lib.RunTable
import AgentContextLint.Resolver.TargetSampler

/-!
# Profile glob dialects

Model of `packages/resolver/src/profile-glob-dialects.ts` with the catalog of
`packages/profiles/src/glob-dialects.ts`: what a profile's rule pattern says about a target path.

A pattern is expanded brace by brace and every expansion is matched by a table over path segments
whose tests are tables over characters. Both tables draw on one work budget; a spent budget ends
the match as unknown, and with it the whole decision.
-/

namespace AgentContextLint

open Utf16 Utf8 Metered RunTable
open RepositoryPath (isRepositoryRelativePath pathSegments repositoryRoot)

/-! ## The catalog -/

inductive ProfileGlobPatternBase
  | repositoryRoot
  | scopeRoot
  | unknown

inductive ProfileGlobFeatureState
  | documented
  | unknown
  deriving DecidableEq

inductive ProfileGlobBracketState
  | invalidIsNoMatch
  | unknown
  deriving DecidableEq

inductive ProfileGlobBraceLimitResult
  | literalNoMatch
  | indeterminate

/-- The fields of a dialect that the matcher reads. -/
structure ProfileGlobDialect where
  id : Text
  profileId : Text
  surfaceIds : List Text
  patternBase : ProfileGlobPatternBase
  star : ProfileGlobFeatureState
  globstar : ProfileGlobFeatureState
  braceExpansion : ProfileGlobFeatureState
  braceExpansionMaximumPatterns : Option Nat
  braceExpansionMaximumBytes : Option Nat
  braceLimitResult : ProfileGlobBraceLimitResult
  bracketExpressions : ProfileGlobBracketState
  questionMark : ProfileGlobFeatureState

structure ActivationFactDecision where
  state : ActivationState
  reason : Text

structure GlobActivationRequest where
  ruleId : Text
  profileId : Text
  surfaceId : Text
  scopeRoot : RelativePath
  targetPath : RelativePath
  pattern : Text
  dialectId : Option Text

inductive ProfileGlobDialectErrorCode
  | invalidRequest
  | resourceLimit

structure ProfileGlobDialectError where
  code : ProfileGlobDialectErrorCode
  message : String

namespace ProfileGlobDialects

def claudeDialect : ProfileGlobDialect where
  id := js "claude-code/project-rule-paths/2026-08-01"
  profileId := js "claude-code"
  surfaceIds := [js "claude-code/local-session"]
  patternBase := .repositoryRoot
  star := .documented
  globstar := .documented
  braceExpansion := .documented
  braceExpansionMaximumPatterns := some 1000
  braceExpansionMaximumBytes := some 4194304
  braceLimitResult := .literalNoMatch
  bracketExpressions := .invalidIsNoMatch
  questionMark := .unknown

/-- The Copilot surfaces whose pattern base is not documented. -/
def unbasedCopilotDialect (id profileId surfaceId : String) : ProfileGlobDialect where
  id := js id
  profileId := js profileId
  surfaceIds := [js surfaceId]
  patternBase := .unknown
  star := .documented
  globstar := .documented
  braceExpansion := .unknown
  braceExpansionMaximumPatterns := none
  braceExpansionMaximumBytes := none
  braceLimitResult := .indeterminate
  bracketExpressions := .unknown
  questionMark := .unknown

/-- `PROFILE_GLOB_DIALECTS` -/
def profileGlobDialects : List ProfileGlobDialect := [
  claudeDialect,
  unbasedCopilotDialect "copilot-cli/apply-to/2026-08-01" "copilot-cli"
    "copilot-cli/local-terminal",
  unbasedCopilotDialect "copilot-cloud-agent/apply-to/2026-08-01" "copilot-cloud-agent"
    "copilot-cloud-agent/github-hosted",
  unbasedCopilotDialect "copilot-code-review/apply-to/2026-08-01" "copilot-code-review"
    "copilot-code-review/github-hosted",
  { id := js "copilot-vscode/apply-to/2026-08-01"
    profileId := js "copilot-vscode"
    surfaceIds := [js "copilot-vscode/local-chat"]
    patternBase := .scopeRoot
    star := .documented
    globstar := .documented
    braceExpansion := .documented
    braceExpansionMaximumPatterns := none
    braceExpansionMaximumBytes := none
    braceLimitResult := .indeterminate
    bracketExpressions := .unknown
    questionMark := .unknown },
  { id := js "cursor-agent/mdc-globs/2026-08-01"
    profileId := js "cursor-agent"
    surfaceIds := [js "cursor-agent/cli", js "cursor-agent/ide"]
    patternBase := .unknown
    star := .unknown
    globstar := .unknown
    braceExpansion := .unknown
    braceExpansionMaximumPatterns := none
    braceExpansionMaximumBytes := none
    braceLimitResult := .indeterminate
    bracketExpressions := .unknown
    questionMark := .unknown }]

def profileGlobDialect (id : Text) : Option ProfileGlobDialect :=
  profileGlobDialects.find? (·.id = id)

/-! ## Limits -/

def maxExpandedBytes : Nat := 4194304

def maxExpandedPatterns : Nat := 1000

def maxInputTextBytes : Nat := 65536

def maxMatchWork : Nat := 1048576

def maxPatternBytes : Nat := 16384

def maxPathSegments : Nat := 1024

def maxTargetBytes : Nat := 16384

/-! ## Requests -/

def failIf (condition : Prop) [Decidable condition] (code : ProfileGlobDialectErrorCode)
    (message : String) : Except ProfileGlobDialectError Unit :=
  refuseIf condition { code, message }

/-- `/[\0-\x1f\x7f-\x9f]/` -/
def hasControl (value : Text) : Bool :=
  value.any fun unit => unit.toNat ≤ 0x1f || (0x7f ≤ unit.toNat && unit.toNat ≤ 0x9f)

/-- The texts of a request in the order of `REQUEST_KEYS`. -/
def requestTexts (request : GlobActivationRequest) : List (String × Text) :=
  [("ruleId", request.ruleId), ("profileId", request.profileId), ("surfaceId", request.surfaceId),
    ("scopeRoot", request.scopeRoot), ("targetPath", request.targetPath),
    ("pattern", request.pattern)] ++ (request.dialectId.map (("dialectId", ·))).toList

def validateRequest (request : GlobActivationRequest) : Except ProfileGlobDialectError Unit := do
  (requestTexts request).forM fun (key, value) =>
    failIf (value = []) .invalidRequest ("profile glob " ++ key ++ " must be text")
  failIf (((requestTexts request).map fun (_, value) => byteLength value).sum > maxInputTextBytes)
    .resourceLimit "profile glob request exceeds its text limit"
  failIf (byteLength request.pattern > maxPatternBytes) .resourceLimit
    "profile glob pattern exceeds its byte limit"
  failIf (byteLength request.targetPath > maxTargetBytes) .resourceLimit
    "profile glob target exceeds its byte limit"
  failIf (¬ isRepositoryRelativePath request.targetPath ∨
      ¬ isRepositoryRelativePath request.scopeRoot) .invalidRequest
    "profile glob paths must be canonical repository-relative paths"

/-- The path of a target below a scope root; `none` for a target outside it. -/
def relativeToScope (targetPath scopeRoot : RelativePath) : Option Text :=
  if scopeRoot = repositoryRoot then some targetPath
  else if targetPath = scopeRoot then some repositoryRoot
  else if (scopeRoot ++ [0x2f]).isPrefixOf targetPath then
    some (targetPath.drop (scopeRoot.length + 1))
  else none

/-! ## Brace expansion -/

inductive ExpansionFailure
  | limit
  | unsupported

/-- What a round of expansion has produced so far. -/
structure ExpansionRound where
  expanded : Bool
  next : List Text
  nextBytes : Nat

variable (dialect : ProfileGlobDialect)

def pushAlternative (front back : Text) (round : ExpansionRound) (alternative : Text) :
    Except ExpansionFailure ExpansionRound := do
  let candidate := front ++ alternative ++ back
  refuseIf (round.next.length + 1 > maxExpandedPatterns ∨
    ∃ count ∈ dialect.braceExpansionMaximumPatterns, round.next.length + 1 > count) .limit
  let nextBytes := round.nextBytes + byteLength candidate
  refuseIf (nextBytes > maxExpandedBytes ∨
    ∃ bytes ∈ dialect.braceExpansionMaximumBytes, nextBytes > bytes) .limit
  return { round with next := round.next ++ [candidate], nextBytes }

/-- One value of a round, split at its first brace. -/
def expandValue (round : ExpansionRound) (value : Text) : Except ExpansionFailure ExpansionRound :=
  match value.dropWhile (· ≠ 0x7b) with
  | [] => do
    refuseIf (0x7d ∈ value) .unsupported
    let nextBytes := round.nextBytes + byteLength value
    refuseIf (nextBytes > maxExpandedBytes) .limit
    return { round with next := round.next ++ [value], nextBytes }
  | _ :: inner => do
    refuseIf (dialect.braceExpansion ≠ .documented) .unsupported
    let body := inner.takeWhile (· ≠ 0x7d)
    refuseIf (0x7d ∉ inner ∨ 0x7b ∈ body) .unsupported
    let alternatives := body.splitOn 0x2c
    refuseIf (alternatives.length < 2 ∨ [] ∈ alternatives) .unsupported
    alternatives.foldlM (pushAlternative dialect (value.takeWhile (· ≠ 0x7b))
      ((inner.dropWhile (· ≠ 0x7d)).drop 1)) { round with expanded := true }

/-- Every round takes the first brace off every value, so that the braces of the pattern bound the
rounds. -/
def expandRounds (dialect : ProfileGlobDialect) :
    (rounds : Nat) → List Text → Except ExpansionFailure (List Text)
  | 0, _ => .error .unsupported
  | rounds + 1, values => do
    let round ← values.foldlM (expandValue dialect) ⟨false, [], 0⟩
    if round.expanded then expandRounds dialect rounds round.next else return round.next

def braceExpansion (pattern : Text) (dialect : ProfileGlobDialect) :
    Except ExpansionFailure (List Text) :=
  expandRounds dialect (pattern.count 0x7b + 1) [pattern]

/-! ## Matching -/

inductive MatchResult
  | matched
  | noMatch
  | unknown
  deriving DecidableEq

/-- The budget was spent. -/
structure Exhausted where
  deriving DecidableEq

abbrev Budgeted := StateT Nat (Except Exhausted)

/-- `WorkBudget.consume` -/
def consume (amount : Nat) : Budgeted PUnit := fun work =>
  if work + amount > maxMatchWork then .error ⟨⟩ else .ok (⟨⟩, work + amount)

def isBracketed : (unclosed : Bool) → Text → Bool
  | unclosed, [] => !unclosed
  | unclosed, unit :: rest =>
    if unit = 0x5b then !unclosed && isBracketed true rest
    else if unit = 0x5d then unclosed && isBracketed false rest
    else isBracketed unclosed rest

def malformedBracketExpression (pattern : Text) : Bool := !isBracketed false pattern

def asciiFold (value : Text) : Text := value.map fun unit =>
  if 0x41 ≤ unit.toNat ∧ unit.toNat ≤ 0x5a then unit + 0x20 else unit

/-- What one scalar of a pattern asks of a scalar of a path segment. -/
inductive ScalarTest
  | any
  | literal (scalar : Nat)

def scalarTest : ScalarTest → Nat → Bool
  | .any, _ => true
  | .literal expected, scalar => scalar == expected

/-- `*`, `?` or a literal. -/
def scalarItem (token : Nat) : Item ScalarTest :=
  if token = 0x2a then .many .any else if token = 0x3f then .one .any else .one (.literal token)

def foldIf (foldCase : Bool) (value : Text) : Text :=
  if foldCase then asciiFold value else value

/-- `value.startsWith(".")` -/
def startsWithDot (value : Text) : Bool := value.head? == some 0x2e

def segmentMatch (pattern value : Text) (dotWildcards foldCase : Bool) : Budgeted Bool :=
  let patternScalars := codePoints (foldIf foldCase pattern)
  if !dotWildcards && startsWithDot value &&
      (patternScalars.head? == some 0x2a || patternScalars.head? == some 0x3f) then pure false
  else matchRows (consume 1) (fun test scalar => pure (scalarTest test scalar))
    (patternScalars.map scalarItem) (codePoints (foldIf foldCase value))

/-- What one segment of a pattern asks of a segment of a path. -/
inductive SegmentTest
  | globstar
  | segment (pattern : Text)

def segmentTest (dotWildcards foldCase : Bool) : SegmentTest → Text → Budgeted Bool
  | .globstar, value => pure (dotWildcards || !startsWithDot value)
  | .segment pattern, value => segmentMatch pattern value dotWildcards foldCase

def segmentItem (segment : Text) : Item SegmentTest :=
  if segment = js "**" then .many .globstar else .one (.segment segment)

def pathSegmentsOf (path : Text) : List Text :=
  if path = repositoryRoot then [] else pathSegments path

def pathMatch (pattern path : Text) (dotWildcards foldCase : Bool) : Budgeted MatchResult := do
  let patternSegments := pathSegments pattern
  let pathSegments := pathSegmentsOf path
  if patternSegments.length > maxPathSegments ∨ pathSegments.length > maxPathSegments then
    return .unknown
  let covered ← matchRows (consume 1) (segmentTest dotWildcards foldCase)
    (patternSegments.map segmentItem) pathSegments
  return if covered then .matched else .noMatch

def hasNonAscii (value : Text) : Bool := value.any (0x7f < ·.toNat)

/-- Text that the dialects leave open, whatever the path. -/
def isUnsupportedText (pattern : Text) : Bool :=
  (js "/").isPrefixOf pattern || (js "./").isPrefixOf pattern || (js "../").isPrefixOf pattern ||
    (js "/").isSuffixOf pattern || decide (js "//" <:+: pattern) || pattern.contains 0x5c ||
    (js "!").isPrefixOf pattern

/-- A segment with a wildcard that the dialect leaves open. -/
def isUnsupportedSegment (segment : Text) : Bool :=
  (decide (js "**" <:+: segment) && segment != js "**") ||
    (segment.contains 0x2a && dialect.star != .documented) ||
    (segment == js "**" && dialect.globstar != .documented)

def matchDocumentedSubset (pattern path : Text) (dialect : ProfileGlobDialect) :
    Budgeted MatchResult := do
  if isUnsupportedText pattern then return .unknown
  if pattern.contains 0x5b || pattern.contains 0x5d then
    return if dialect.bracketExpressions = .invalidIsNoMatch ∧ malformedBracketExpression pattern
      then .noMatch else .unknown
  if pattern.contains 0x3f && dialect.questionMark != .documented then return .unknown
  if (pathSegments pattern).any (isUnsupportedSegment dialect) then return .unknown
  let sensitiveWithoutDots ← pathMatch pattern path false false
  if sensitiveWithoutDots ≠ .noMatch then return sensitiveWithoutDots
  let sensitiveWithDots ← pathMatch pattern path true false
  if sensitiveWithDots ≠ .noMatch then return .unknown
  let foldedWithoutDots ← pathMatch pattern path false true
  if foldedWithoutDots ≠ .noMatch then return .unknown
  let foldedWithDots ← pathMatch pattern path true true
  if foldedWithDots ≠ .noMatch then return .unknown
  if hasNonAscii pattern || hasNonAscii path then return .unknown
  return .noMatch

/-! ## Decisions -/

def invalidInputDecision : ActivationFactDecision where
  state := .indeterminate
  reason := js "The glob request contains unsupported text; profile activation remains indeterminate."

def unsupportedDecision (dialect : ProfileGlobDialect) : ActivationFactDecision where
  state := .indeterminate
  reason := js "Dialect " ++ dialect.id ++
    js " does not document the requested behavior; activation remains indeterminate."

/-- The loop over the expansions. -/
def matchPatterns (path : Text) (dialect : ProfileGlobDialect) :
    (sawUnknown : Bool) → List Text → Budgeted ActivationFactDecision
  | sawUnknown, [] => return if sawUnknown then unsupportedDecision dialect else
      { state := .inactive
        reason := js "Dialect " ++ dialect.id ++ js " did not match the target." }
  | sawUnknown, pattern :: rest => do
    match ← matchDocumentedSubset pattern path dialect with
    | .matched => return {
        state := .active
        reason := js "Dialect " ++ dialect.id ++
          js " matched the target under its documented subset." }
    | .unknown => matchPatterns path dialect true rest
    | .noMatch => matchPatterns path dialect sawUnknown rest

/-- The decision about a target by its path from the base of the dialect. -/
def matchRelative (pattern : Text) (path : Text) (dialect : ProfileGlobDialect) :
    ActivationFactDecision :=
  match braceExpansion pattern dialect with
  | .error .unsupported => unsupportedDecision dialect
  | .error .limit =>
    match dialect.braceLimitResult with
    | .literalNoMatch => {
        state := .inactive
        reason := js "Dialect " ++ dialect.id ++
          js " defines over-budget brace expansion as a literal non-match." }
    | .indeterminate => unsupportedDecision dialect
  | .ok patterns =>
    match matchPatterns path dialect false patterns 0 with
    | .ok (decision, _) => decision
    | .error _ => unsupportedDecision dialect

def matchProfileGlob (request : GlobActivationRequest) :
    Except ProfileGlobDialectError ActivationFactDecision := do
  validateRequest request
  if !wellFormed request.pattern || hasControl request.pattern || !wellFormed request.ruleId ||
      !wellFormed request.profileId || !wellFormed request.surfaceId ||
      !(request.dialectId.all wellFormed) then
    return invalidInputDecision
  match request.dialectId with
  | none => return {
      state := .indeterminate
      reason := js
        "The activation selector has no profile-owned glob dialect; activation remains indeterminate." }
  | some dialectId =>
  match profileGlobDialect dialectId with
  | none => return {
      state := .indeterminate
      reason := js "No profile-owned semantics are registered for the requested glob dialect." }
  | some dialect =>
  if dialect.profileId ≠ request.profileId ∨ request.surfaceId ∉ dialect.surfaceIds then
    return {
      state := .indeterminate
      reason := js "Dialect " ++ dialect.id ++
        js " is not owned by the requested profile surface; activation remains indeterminate." }
  match dialect.patternBase with
  | .unknown => return unsupportedDecision dialect
  | .repositoryRoot => return matchRelative request.pattern request.targetPath dialect
  | .scopeRoot =>
    match relativeToScope request.targetPath request.scopeRoot with
    | some path => return matchRelative request.pattern path dialect
    | none => return {
        state := .inactive
        reason := js "Target is outside the scope-root base owned by dialect " ++ dialect.id ++
          js "." }

end ProfileGlobDialects

end AgentContextLint
