import AgentContextLint.Core.BaselineOutput

/-!
# Diagnostic baselines

Model of `packages/core/src/diagnostic-baseline.ts`: the diagnostics of a bundle are compared with
a baseline.

The maps of a comparison are keyed by JSON texts, as in the source. The issues of the validators
it calls are not modelled; a failure of theirs is `rejected`.
-/

namespace AgentContextLint

open Utf16 Utf8 Sorting Metered DiagnosticFingerprint DiagnosticValidation BaselineOutput
open OutputSanitization (sanitizeOutputText)
open RepositoryPath (isRepositoryRelativePath)
open Json (canonical texts)
open OrderedMap (group)

/-! ## Contracts -/

inductive BaselineDiagnosticKind
  | lint
  | configurationError
  | parserError

structure BaselineDiagnosticClassification where
  diagnosticId : Text
  kind : BaselineDiagnosticKind

structure BaselinePathMove where
  fromPath : RelativePath
  toPath : RelativePath
  ruleId : Text
  semanticFingerprint : Text

structure CompareDiagnosticBaselineInput where
  baseline : BaselineOutput
  diagnostics : DiagnosticBundle
  sources : List SourceDocument
  classifications : List BaselineDiagnosticClassification
  engineVersion : Text
  profileVersions : ProfileVersions
  now : Text
  pathMoves : List BaselinePathMove

inductive BaselineComparisonStatus
  | matched
  | new
  | expired
  | incompatible
  | ambiguous
  deriving DecidableEq

inductive BaselineComparisonReason
  | exactMatch
  | pathMove
  | notInBaseline
  | nonSuppressibleConfigurationError
  | nonSuppressibleParserError
  | baselineExpired
  | entryExpired
  | engineVersionChanged
  | profileIdentityChanged
  | ruleVersionChanged
  | severityChanged
  | diagnosticProvenanceChanged
  | fingerprintChanged
  | pathMoveUnproven
  | fingerprintCollision
  | ambiguousPathMove
  deriving DecidableEq

structure BaselineDiagnosticComparison where
  diagnosticIndex : Nat
  diagnosticId : Text
  status : BaselineComparisonStatus
  reason : BaselineComparisonReason
  visible : Bool
  baselineEntryIndex : Option Nat

inductive BaselineStaleReason
  | expired
  | notObserved
  deriving DecidableEq

structure BaselineStaleEntry where
  baselineEntryIndex : Nat
  ruleId : Text
  path : RelativePath
  reason : BaselineStaleReason

structure BaselineComparisonSummary where
  matched : Nat
  new : Nat
  stale : Nat
  expired : Nat
  incompatible : Nat
  ambiguous : Nat

structure DiagnosticBaselineComparison where
  diagnostics : List BaselineDiagnosticComparison
  visibleDiagnosticIndexes : List Nat
  visibleDiagnosticIds : List Text
  staleEntries : List BaselineStaleEntry
  summary : BaselineComparisonSummary

inductive BaselineOperationIssueCode
  | invalidBaseline
  | invalidDiagnostics
  | invalidInput
  | resourceLimit
  deriving DecidableEq

inductive BaselineFailure
  | issue (code : BaselineOperationIssueCode) (path message : String)
  | rejected (code : BaselineOperationIssueCode)
  deriving DecidableEq

/-- The checks that are not modelled: those inside single records, and the limits on the JSON
texts of the profiles and of a baseline. -/
structure BaselineChecks where
  records : RecordChecks
  profiles : ProfileVersions → Bool
  output : BaselineOutput → Bool

namespace DiagnosticBaseline

/-- `MAX_BASELINE_PATH_MOVES` -/
def maxBaselinePathMoves : Nat := 10000

/-- What the `catch` of the operation reports. -/
def uninspectable : BaselineFailure :=
  .issue .invalidInput "$" "input must be safely inspectable bounded data"

/-! ## Profiles -/

/-- Redaction must not collapse distinct identities; `none` stands for a thrown `TypeError`. -/
def canonicalSanitizedStrings (values : List Text) : Option (List Text) :=
  let canonical := canonicalStrings values
  let sanitized := canonical.map sanitizeOutputText
  if sanitized.eraseDups.length ≠ canonical.length then none
  else some (sortBy compareBytes sanitized)

def canonicalProfiles (value : ProfileVersions) : ProfileVersions :=
  let sanitized := sanitizeRecord sanitizeProfile value
  enumerated ((sortBy (comparingBytes (·.1)) sanitized.entries).foldl (fun result entry =>
    result.set entry.1 { entry.2 with
      surfaceIds := canonicalStrings entry.2.surfaceIds
      specSnapshotIds := canonicalStrings entry.2.specSnapshotIds }) .empty)

/-- The text of this list is compared. -/
def profilesIdentity (value : ProfileVersions) : List (Text × BaselineProfileVersionIdentity) :=
  (canonicalProfiles value).entries

def isWellFormedProfile (entry : Text × BaselineProfileVersionIdentity) : Bool :=
  isStableIdentifier entry.1 && version.matchesAll entry.2.profileVersion &&
    entry.2.surfaceIds.all isStableIdentifier && entry.2.specSnapshotIds.all isStableIdentifier &&
    decide entry.2.surfaceIds.Nodup && decide entry.2.specSnapshotIds.Nodup

variable (checks : BaselineChecks)

def profilesAreWellFormed (profiles : ProfileVersions) : Bool :=
  checks.profiles profiles && profiles.keys ≠ [] && profiles.keys.length ≤ 100000 &&
    profiles.entries.all isWellFormedProfile

/-! ## Provenance -/

structure DiagnosticProvenance where
  profileIds : List Text
  surfaceIds : List Text
  specSnapshotIds : List Text
  provenanceFingerprint : Text

/-- `JSON.stringify` of an array of strings. -/
def stringify (values : List Text) : Text := canonical (texts values)

def relatedProfileIds (related : RelatedEvidence) : List Text :=
  match related.body with
  | .resolution resolution => [resolution.profileId]
  | .spec _ | .source _ | .repositoryFact _ => []

def relatedSurfaceIds (related : RelatedEvidence) : List Text :=
  match related.body with
  | .resolution resolution => [resolution.surfaceId]
  | .spec _ | .source _ | .repositoryFact _ => []

def relatedSpecSnapshotIds (related : RelatedEvidence) : List Text :=
  match related.body with
  | .resolution resolution => [resolution.specSnapshotId]
  | .spec spec => [spec.specSnapshotId]
  | .source _ | .repositoryFact _ => []

def relatedComponents (related : RelatedEvidence) : List Text :=
  match related.body with
  | .resolution resolution =>
    [stringify [js "resolution", resolution.profileId, resolution.surfaceId,
      resolution.specSnapshotId]]
  | .spec spec => [stringify [js "spec", spec.specSnapshotId]]
  | .source _ | .repositoryFact _ => []

def diagnosticProvenance (diagnostic : Diagnostic) : DiagnosticProvenance :=
  let pathProfiles := diagnostic.fingerprintBasis.path.profileIds
  let semanticProfiles := diagnostic.fingerprintBasis.semantic.profileIds
  let components := (pathProfiles.map fun id => stringify [js "path-profile", id]) ++
    (semanticProfiles.map fun id => stringify [js "semantic-profile", id]) ++
    diagnostic.related.flatMap relatedComponents
  { profileIds := canonicalStrings
      (pathProfiles ++ semanticProfiles ++ diagnostic.related.flatMap relatedProfileIds)
    surfaceIds := canonicalStrings (diagnostic.related.flatMap relatedSurfaceIds)
    specSnapshotIds := canonicalStrings (diagnostic.related.flatMap relatedSpecSnapshotIds)
    provenanceFingerprint := Sha256.sha256Hex (encode (stringify (canonicalStrings components))) }

/-! ## Entries and their identities -/

def entryFromDiagnostic (diagnostic : Diagnostic) (firstSeenAt : Text)
    (expiresAt : Option Text) : Option BaselineEntry := do
  let provenance := diagnosticProvenance diagnostic
  let profileIds ← canonicalSanitizedStrings provenance.profileIds
  let surfaceIds ← canonicalSanitizedStrings provenance.surfaceIds
  let specSnapshotIds ← canonicalSanitizedStrings provenance.specSnapshotIds
  pure {
    ruleId := sanitizeOutputText diagnostic.ruleId
    ruleVersion := sanitizeOutputText diagnostic.ruleVersion
    severity := diagnostic.severity
    path := sanitizeOutputText diagnostic.primary.path
    semanticFingerprint := diagnostic.fingerprints.semantic.value
    pathFingerprint := diagnostic.fingerprints.path.value
    provenanceFingerprint := provenance.provenanceFingerprint
    profileIds, surfaceIds, specSnapshotIds, firstSeenAt, expiresAt }

def matchIdentity (entry : BaselineEntry) : Text :=
  canonical (.array [.string entry.ruleId, .string entry.ruleVersion,
    .string entry.severity.text, .string entry.path, .string entry.semanticFingerprint,
    .string entry.pathFingerprint, .string entry.provenanceFingerprint,
    texts entry.profileIds, texts entry.surfaceIds, texts entry.specSnapshotIds])

def nearIdentity (entry : BaselineEntry) : Text := stringify [entry.ruleId, entry.path]

def semanticIdentity (entry : BaselineEntry) : Text :=
  canonical (.array [.string entry.ruleId, .string entry.ruleVersion,
    .string entry.severity.text, .string entry.semanticFingerprint,
    .string entry.provenanceFingerprint, texts entry.profileIds,
    texts entry.surfaceIds, texts entry.specSnapshotIds])

def moveIdentity (toPath : RelativePath) (ruleId semanticFingerprint : Text) : Text :=
  stringify [toPath, ruleId, semanticFingerprint]

/-! ## Common validation -/

/-- The kind of every diagnostic by its id, when each is classified once and in order. -/
def classificationMap (diagnostics : List Diagnostic)
    (classifications : List BaselineDiagnosticClassification) :
    Option (OrderedMap Text BaselineDiagnosticKind) :=
  if classifications.map (·.diagnosticId) = diagnostics.map (·.id) ∧
      (diagnostics.map (·.id)).Nodup then
    some (classifications.foldl (fun result classification =>
      result.set classification.diagnosticId classification.kind) .empty)
  else none

def validateCommon (diagnostics : DiagnosticBundle) (sources : List SourceDocument)
    (classifications : List BaselineDiagnosticClassification) (engineVersion : Text)
    (profileVersions : ProfileVersions) :
    Except BaselineFailure (OrderedMap Text BaselineDiagnosticKind) := do
  refuseIf (validateDiagnosticBundle checks.records sources diagnostics = false)
    (.rejected .invalidDiagnostics)
  match classificationMap diagnostics.diagnostics classifications with
  | none => .error (.issue .invalidInput "$.classifications"
      "must classify every diagnostic exactly once in caller order")
  | some kinds =>
    refuseIf (version.matchesAll engineVersion = false)
      (.issue .invalidInput "$.engineVersion" "must be an exact semantic version")
    refuseIf (profilesAreWellFormed checks profileVersions = false)
      (.issue .invalidInput "$.profileVersions" "must be closed bounded profile identities")
    pure kinds

/-! ## Comparison -/

structure IndexedEntry where
  entry : BaselineEntry
  index : Nat

def validateMove (move : BaselinePathMove) : Bool :=
  isRepositoryRelativePath move.fromPath && isRepositoryRelativePath move.toPath &&
    move.fromPath ≠ move.toPath && isStableIdentifier move.ruleId &&
    isFingerprint move.semanticFingerprint

def validateMoves (moves : List BaselinePathMove) : Bool :=
  moves.length ≤ maxBaselinePathMoves && moves.all validateMove

def incompatibilityReason (baseline current : BaselineEntry) : BaselineComparisonReason :=
  if baseline.ruleVersion ≠ current.ruleVersion then .ruleVersionChanged
  else if baseline.severity ≠ current.severity then .severityChanged
  else if baseline.provenanceFingerprint ≠ current.provenanceFingerprint ∨
      baseline.profileIds ≠ current.profileIds ∨ baseline.surfaceIds ≠ current.surfaceIds ∨
      baseline.specSnapshotIds ≠ current.specSnapshotIds then .diagnosticProvenanceChanged
  else .fingerprintChanged

def expiredReason (baseline : BaselineOutput) (entry : BaselineEntry) (now : Text) :
    Option BaselineComparisonReason :=
  if baseline.expiresAt.any fun expiry => !isBefore now expiry then some .baselineExpired
  else if entry.expiresAt.any fun expiry => !isBefore now expiry then some .entryExpired
  else none

/-- The maps that a comparison looks diagnostics up in, and what holds of the whole. -/
structure Lookup where
  baseline : BaselineOutput
  now : Text
  exactEntries : OrderedMap Text (List IndexedEntry)
  nearEntries : OrderedMap Text (List IndexedEntry)
  semanticEntries : OrderedMap Text (List IndexedEntry)
  moveDeclarations : OrderedMap Text (List BaselinePathMove)
  currentIdentities : List Text
  currentSemantics : List Text
  globalReason : Option BaselineComparisonReason

def indexedEntries (baseline : BaselineOutput) : List IndexedEntry :=
  baseline.entries.mapIdx fun index entry => ⟨entry, index⟩

variable (input : CompareDiagnosticBaselineInput)

def makeLookup (currentEntries : List BaselineEntry) : Lookup :=
  let indexed := indexedEntries input.baseline
  { baseline := input.baseline
    now := input.now
    exactEntries := group (fun item => matchIdentity item.entry) indexed
    nearEntries := group (fun item => nearIdentity item.entry) indexed
    semanticEntries := group (fun item => semanticIdentity item.entry) indexed
    moveDeclarations := group
      (fun move => moveIdentity move.toPath move.ruleId move.semanticFingerprint) input.pathMoves
    currentIdentities := currentEntries.map matchIdentity
    currentSemantics := currentEntries.map semanticIdentity
    globalReason :=
      if input.baseline.engineVersion ≠ input.engineVersion then some .engineVersionChanged
      else if profilesIdentity input.baseline.profileVersions ≠
          profilesIdentity input.profileVersions then some .profileIdentityChanged
      else none }

/-- What is said of one diagnostic, and the entry it consumes. -/
structure Verdict where
  status : BaselineComparisonStatus
  reason : BaselineComparisonReason
  visible : Bool
  baselineEntryIndex : Option Nat
  consumed : Option Nat

def Verdict.shown (status : BaselineComparisonStatus) (reason : BaselineComparisonReason)
    (baselineEntryIndex : Option Nat) : Verdict :=
  ⟨status, reason, true, baselineEntryIndex, none⟩

variable (lookup : Lookup)

/-- The diagnostic consumes its candidate: it matches it, or the candidate has expired. -/
def consume (candidate : IndexedEntry) (reason : BaselineComparisonReason) : Verdict :=
  match expiredReason lookup.baseline candidate.entry lookup.now with
  | none => ⟨.matched, reason, false, some candidate.index, some candidate.index⟩
  | some expiry => ⟨.expired, expiry, true, some candidate.index, some candidate.index⟩

/-- A diagnostic at a rule and path where the baseline has nothing. -/
def moveVerdict (current : BaselineEntry) : Verdict :=
  let declarations := lookup.moveDeclarations.members
    (moveIdentity current.path current.ruleId current.semanticFingerprint)
  let semanticCandidates := lookup.semanticEntries.members (semanticIdentity current)
  if declarations ≠ [] then
    let eligible := semanticCandidates.filter fun candidate =>
      declarations.any fun move => move.fromPath = candidate.entry.path
    match declarations, eligible with
    | [_], [candidate] =>
      if lookup.currentSemantics.count (semanticIdentity current) ≠ 1 then
        .shown .ambiguous .ambiguousPathMove none
      else consume lookup candidate .pathMove
    | _, _ => .shown .ambiguous .ambiguousPathMove none
  else .shown .new (if semanticCandidates = [] then .notInBaseline else .pathMoveUnproven) none

def nearVerdict (current : BaselineEntry) : Verdict :=
  match lookup.nearEntries.members (nearIdentity current) with
  | [candidate] =>
    .shown .incompatible (incompatibilityReason candidate.entry current) (some candidate.index)
  | [] => moveVerdict lookup current
  | _ :: _ :: _ => .shown .ambiguous .fingerprintCollision none

def lintVerdict (current : BaselineEntry) : Verdict :=
  match lookup.globalReason with
  | some reason => .shown .incompatible reason none
  | none =>
    match lookup.exactEntries.members (matchIdentity current) with
    | [] => nearVerdict lookup current
    | [candidate] =>
      if lookup.currentIdentities.count (matchIdentity current) = 1 then
        consume lookup candidate .exactMatch
      else .shown .ambiguous .fingerprintCollision none
    | _ :: _ :: _ => .shown .ambiguous .fingerprintCollision none

def verdictFor (kind : Option BaselineDiagnosticKind) (current : BaselineEntry) : Verdict :=
  match kind with
  | some .lint => lintVerdict lookup current
  | some .parserError => .shown .new .nonSuppressibleParserError none
  | some .configurationError | none => .shown .new .nonSuppressibleConfigurationError none

/-- The comparisons made so far and the entries they consumed. -/
structure Comparing where
  consumed : List Nat
  comparisons : List BaselineDiagnosticComparison

variable (kinds : OrderedMap Text BaselineDiagnosticKind)

def compareDiagnostic (state : Comparing) (item : Nat × Diagnostic × BaselineEntry) : Comparing :=
  let verdict := verdictFor lookup (kinds.get? item.2.1.id) item.2.2
  { consumed := state.consumed ++ verdict.consumed.toList
    comparisons := state.comparisons ++ [{
      diagnosticIndex := item.1
      diagnosticId := sanitizeOutputText item.2.1.id
      status := verdict.status
      reason := verdict.reason
      visible := verdict.visible
      baselineEntryIndex := verdict.baselineEntryIndex }] }

def compareDiagnostics (diagnostics : List Diagnostic) (currentEntries : List BaselineEntry) :
    Comparing :=
  ((diagnostics.zip currentEntries).mapIdx fun index pair => (index, pair)).foldl
    (compareDiagnostic lookup kinds) ⟨[], []⟩

def staleEntry (baseline : BaselineOutput) (now : Text) (item : IndexedEntry) :
    BaselineStaleEntry where
  baselineEntryIndex := item.index
  ruleId := sanitizeOutputText item.entry.ruleId
  path := sanitizeOutputText item.entry.path
  reason := if (expiredReason baseline item.entry now).isSome then .expired else .notObserved

def summarize (comparisons : List BaselineDiagnosticComparison)
    (staleEntries : List BaselineStaleEntry) : BaselineComparisonSummary :=
  let withStatus (status : BaselineComparisonStatus) : Nat :=
    (comparisons.filter fun item => item.status = status).length
  { matched := withStatus .matched
    new := withStatus .new
    stale := (staleEntries.filter fun item => item.reason = .notObserved).length
    expired := withStatus .expired +
      (staleEntries.filter fun item => item.reason = .expired).length
    incompatible := withStatus .incompatible
    ambiguous := withStatus .ambiguous }

/-- What a comparison reports behind its checks. -/
def comparisonOf (currentEntries : List BaselineEntry) : DiagnosticBaselineComparison :=
  let compared := compareDiagnostics (makeLookup input currentEntries) kinds
    input.diagnostics.diagnostics currentEntries
  let staleEntries := ((indexedEntries input.baseline).filter fun item =>
    item.index ∉ compared.consumed).map (staleEntry input.baseline input.now)
  let visible := compared.comparisons.filter (·.visible)
  { diagnostics := compared.comparisons
    visibleDiagnosticIndexes := visible.map (·.diagnosticIndex)
    visibleDiagnosticIds := visible.map (·.diagnosticId)
    staleEntries
    summary := summarize compared.comparisons staleEntries }

def compareDiagnosticBaseline (input : CompareDiagnosticBaselineInput) :
    Except BaselineFailure DiagnosticBaselineComparison := do
  refuseIf (validateBaselineOutput checks.output input.baseline = false) (.rejected .invalidBaseline)
  let kinds ← validateCommon checks input.diagnostics input.sources input.classifications
    input.engineVersion input.profileVersions
  refuseIf (isCanonicalDateTime input.now = false)
    (.issue .invalidInput "$.now" "must be an explicit canonical UTC instant")
  refuseIf (validateMoves input.pathMoves = false)
    (.issue .invalidInput "$.pathMoves" "must contain closed unambiguous move declarations")
  match input.diagnostics.diagnostics.mapM fun diagnostic =>
      entryFromDiagnostic diagnostic input.now none with
  | none => .error uninspectable
  | some currentEntries => pure (comparisonOf input kinds currentEntries)

end DiagnosticBaseline

end AgentContextLint
