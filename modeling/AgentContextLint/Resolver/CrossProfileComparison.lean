import AgentContextLint.Lib.StatefulRuns
import AgentContextLint.Resolver.ProfileProjections

/-!
# Comparing the effective contexts of several profiles

Model of `packages/resolver/src/cross-profile-comparison.ts`. The resolutions of one target are
projected, sorted by a digest of what names them, and compared pair by pair: which paths are in
scope, in which order the common ones come, and whether their contents are the same. A budget
counts what the pairs list.
-/

namespace AgentContextLint.CrossProfile

open Utf16 Utf8 Metered Sorting StatefulRuns

open EffectiveContext (AssemblyState ContextOrdering EffectiveContextAmbiguityKind EffectiveContextDocument EffectiveContextResolution documentAt pairs)

/-! ## Limits -/

def maximumAggregateAmbiguities : Nat := 131072

def maximumAggregateDocuments : Nat := 65536

def maximumPairEvidenceEntries : Nat := 524288

def maximumPairWork : Nat := 1048576

def maximumProfiles : Nat := 16

/-! ## Records -/

inductive CrossProfileDimensionState
  | different
  | notApplicable
  | same
  | unknown
  deriving DecidableEq

inductive CrossProfileScopeState
  | absent
  | conditional
  | excluded
  | included
  | unknown
  deriving DecidableEq

structure CrossProfileCountSummary where
  conditional : Nat
  excluded : Nat
  included : Nat
  unavailableContent : Nat

structure CrossProfileProfileSummary where
  ambiguityIds : List Text
  analysisIsComplete : Bool
  assemblySha256 : Option Text
  assemblyState : AssemblyState
  clientVersion : Option Text
  counts : CrossProfileCountSummary
  id : Text
  ordering : ContextOrdering
  profileId : Text
  profileVersion : Text
  specSnapshotId : Text
  surfaceId : Text

structure CrossProfileScopeDifference where
  leftState : CrossProfileScopeState
  path : RelativePath
  rightState : CrossProfileScopeState

structure CrossProfileScopeComparison where
  differences : List CrossProfileScopeDifference
  reasonCodes : List Text
  state : CrossProfileDimensionState
  unknownPaths : List RelativePath

/-- On the left the first path comes before the second one, on the right after it. -/
structure CrossProfileOrderWitness where
  firstPath : RelativePath
  secondPath : RelativePath

structure CrossProfileOrderComparison where
  commonIncludedPaths : List RelativePath
  reasonCodes : List Text
  state : CrossProfileDimensionState
  witness : Option CrossProfileOrderWitness

structure CrossProfileContentDifference where
  leftSha256 : Text
  path : RelativePath
  rightSha256 : Text

structure CrossProfileContentComparison where
  differences : List CrossProfileContentDifference
  matchingPaths : List RelativePath
  reasonCodes : List Text
  state : CrossProfileDimensionState
  unknownPaths : List RelativePath

inductive CrossProfileOverall
  | divergent
  | indeterminate
  | observationalMatch

inductive CrossProfileSemanticRelation
  | distinctSurfaceContracts
  | incompatibleProfileContracts

structure CrossProfilePairComparison where
  content : CrossProfileContentComparison
  id : Text
  leftProfileId : Text
  ordering : CrossProfileOrderComparison
  overall : CrossProfileOverall
  rightProfileId : Text
  scope : CrossProfileScopeComparison
  semanticRelation : CrossProfileSemanticRelation

structure CrossProfileComparison where
  analysisIsComplete : Bool
  pairs : List CrossProfilePairComparison
  profiles : List CrossProfileProfileSummary
  targetPath : RelativePath

/-- A resolution as an object of the process. -/
structure ResolutionObject where
  /-- Which object it is. -/
  identity : Nat
  /-- E05 has put it into its set. -/
  isIssued : Bool
  resolution : EffectiveContextResolution

structure CompareEffectiveContextsInput where
  contractVersion : Text
  recordKind : Text
  resolutions : List ResolutionObject

inductive CrossProfileComparisonErrorCode
  | invalidInput
  | invalidRelationship
  | resourceLimit

structure CrossProfileComparisonError where
  code : CrossProfileComparisonErrorCode
  message : String

def failIf (condition : Prop) [Decidable condition] (code : CrossProfileComparisonErrorCode)
    (message : String) : Except CrossProfileComparisonError Unit :=
  refuseIf condition ⟨code, message⟩

/-! ## The input -/

def checkArray (value : List ResolutionObject) : Except CrossProfileComparisonError Unit := do
  failIf (value.length < 2) .invalidRelationship
    "cross-profile comparison requires at least two resolutions"
  failIf (value.length > maximumProfiles) .resourceLimit
    "comparison resolution count exceeds its limit"
  failIf (∃ object ∈ value, object.isIssued = false) .invalidInput
    "comparison accepts only same-process E05 resolutions"
  failIf (¬ (value.map (·.identity)).Nodup) .invalidRelationship
    "comparison resolutions must not repeat an issued object"

def resolutionArray (value : List ResolutionObject) :
    Except CrossProfileComparisonError (List EffectiveContextResolution) := do
  checkArray value
  return value.map (·.resolution)

/-! ## Profiles -/

/-- The digest of some texts, each with its length in front. -/
def hash (values : List (Option Text)) : Text :=
  EffectiveContext.hash (values.map fun value => value.getD (js "<null>"))

def profileId (resolution : EffectiveContextResolution) : Text :=
  js "comparison-profile:" ++ (hash [some resolution.profileId, some resolution.surfaceId,
    some resolution.profileVersion, some resolution.specSnapshotId, resolution.clientVersion]).take 32

def scopeState (document : EffectiveContextDocument) : CrossProfileScopeState :=
  if document.activation = .indeterminate ∨ document.state = .conditional then .conditional
  else if document.activation = .inactive ∨ document.state = .inactive ∨ document.state = .shadowed
  then .excluded
  else .included

/-- The documents are those of the resolution: their paths differ. -/
structure ProfileProjection where
  includedPaths : List RelativePath
  resolution : EffectiveContextResolution
  scopeComplete : Bool
  sequencePaths : List RelativePath
  summary : CrossProfileProfileSummary

def isScopeAmbiguity (kind : EffectiveContextAmbiguityKind) : Bool :=
  kind = .activation ∨ kind = .partialProfile ∨ kind = .targetScope

def contentUnavailable (document : EffectiveContextDocument) : Bool :=
  document.contentSha256 = none ∨ document.contentState = .identityOnly ∨
    document.contentState = .unavailable

def countSummary (documents : List EffectiveContextDocument) : CrossProfileCountSummary where
  conditional := documents.countP (scopeState · = .conditional)
  excluded := documents.countP (scopeState · = .excluded)
  included := documents.countP (scopeState · = .included)
  unavailableContent := documents.countP contentUnavailable

def includedPaths (resolution : EffectiveContextResolution) : List RelativePath :=
  (resolution.documents.filter (scopeState · = .included)).map (·.path)

/-- `byId.get`: of several documents with one identifier the last one counts. -/
def documentWithId (documents : List EffectiveContextDocument) (id : Text) :
    Option EffectiveContextDocument := documents.reverse.find? (·.id = id)

def includedSequence (resolution : EffectiveContextResolution) : List RelativePath :=
  ((resolution.sequence.filterMap (documentWithId resolution.documents)).filter
    (scopeState · = .included)).map (·.path)

def profileSummary (resolution : EffectiveContextResolution) : CrossProfileProfileSummary where
  ambiguityIds := sortBy compareBytes (resolution.ambiguities.map (·.id))
  analysisIsComplete := resolution.analysisIsComplete
  assemblySha256 := resolution.assembly.sha256
  assemblyState := resolution.assembly.state
  clientVersion := resolution.clientVersion
  counts := countSummary resolution.documents
  id := profileId resolution
  ordering := resolution.ordering
  profileId := resolution.profileId
  profileVersion := resolution.profileVersion
  specSnapshotId := resolution.specSnapshotId
  surfaceId := resolution.surfaceId

def profileProjection (resolution : EffectiveContextResolution) : ProfileProjection where
  includedPaths := includedPaths resolution
  resolution := resolution
  scopeComplete := ¬ ∃ entry ∈ resolution.ambiguities, isScopeAmbiguity entry.kind
  sequencePaths := includedSequence resolution
  summary := profileSummary resolution

def projectProfile (resolution : EffectiveContextResolution) :
    Except CrossProfileComparisonError ProfileProjection := do
  failIf (¬ (resolution.documents.map (·.path)).Nodup) .invalidRelationship
    "an issued resolution contains duplicate document paths"
  failIf (¬ (includedSequence resolution).Nodup) .invalidRelationship
    "an issued resolution repeats a document path in its sequence"
  return profileProjection resolution

/-! ## Pairs -/

/-- A program over the entries counted so far. -/
abbrev Comparing (α : Type) := StateT Nat (Except CrossProfileComparisonError) α

def addEvidence (amount : Nat) : Comparing Unit := fun evidenceEntries =>
  if evidenceEntries + amount > maximumPairEvidenceEntries then
    .error ⟨.resourceLimit, "cross-profile comparison evidence exceeds its aggregate limit"⟩
  else .ok ((), evidenceEntries + amount)

def uniqueSorted (values : List Text) : List Text := sortBy compareBytes values.eraseDups

def stateAt (profile : ProfileProjection) (path : RelativePath) : CrossProfileScopeState :=
  match documentAt profile.resolution.documents path with
  | some document => scopeState document
  | none => if profile.scopeComplete then .absent else .unknown

def scopePaths (left right : ProfileProjection) : List RelativePath :=
  uniqueSorted (left.resolution.documents.map (·.path) ++ right.resolution.documents.map (·.path))

/-- One of the sides leaves open whether a path is in scope. -/
def isOpen (leftState rightState : CrossProfileScopeState) : Bool :=
  leftState = .unknown ∨ rightState = .unknown ∨ leftState = .conditional ∨
    rightState = .conditional

def scopeReasons (leftState rightState : CrossProfileScopeState) : List Text :=
  (if leftState = .unknown then [js "left-scope-incomplete"] else []) ++
  (if rightState = .unknown then [js "right-scope-incomplete"] else []) ++
  if leftState = .conditional ∨ rightState = .conditional then [js "conditional-activation"] else []

def dimensionState (differences unknownPaths : Nat) : CrossProfileDimensionState :=
  if differences > 0 then .different else if unknownPaths > 0 then .unknown else .same

def scopeComparison (left right : ProfileProjection) : CrossProfileScopeComparison :=
  let paths := scopePaths left right
  let unknownPaths := paths.filter fun path => isOpen (stateAt left path) (stateAt right path)
  let differences := (paths.filter fun path =>
    ¬ isOpen (stateAt left path) (stateAt right path) ∧ stateAt left path ≠ stateAt right path).map
      fun path => ⟨stateAt left path, path, stateAt right path⟩
  { differences
    reasonCodes := uniqueSorted (paths.flatMap fun path =>
      scopeReasons (stateAt left path) (stateAt right path))
    state := dimensionState differences.length unknownPaths.length
    unknownPaths }

def compareScope (left right : ProfileProjection) : Comparing CrossProfileScopeComparison := do
  let scope := scopeComparison left right
  addEvidence (scope.differences.length + scope.unknownPaths.length)
  return scope

def commonIncludedPaths (left right : ProfileProjection) : List RelativePath :=
  uniqueSorted (left.includedPaths.filter (· ∈ right.includedPaths))

/-- `rightRank.get`: of several places of one path the last one counts. -/
def rankIn (sequence : List RelativePath) (path : RelativePath) : Option Nat :=
  (sequence.zipIdx.reverse.find? (·.1 = path)).map (·.2)

/-- The loop over the left sequence, with the maximal rank so far and its path. -/
def searchWitness (rank : RelativePath → Option Nat) :
    Option (Nat × RelativePath) → List RelativePath →
      Comparing (Option CrossProfileOrderWitness)
  | _, [] => pure none
  | maximum, path :: rest =>
    match rank path, maximum with
    | none, _ => stop ⟨.invalidRelationship,
        "complete comparison sequence is missing a shared path"⟩
    | some found, none => searchWitness rank (some (found, path)) rest
    | some found, some (maximumRank, maximumPath) =>
      if found < maximumRank then pure (some ⟨maximumPath, path⟩)
      else searchWitness rank (some (found, path)) rest

/-- What speaks against comparing two sequences. -/
def orderReasons (left right : ProfileProjection) (common : List RelativePath) : List Text :=
  (if left.resolution.ordering ≠ .total then [js "left-order-not-total"] else []) ++
  (if right.resolution.ordering ≠ .total then [js "right-order-not-total"] else []) ++
  (if (left.sequencePaths.filter (· ∈ common)).length ≠ common.length then
    [js "left-sequence-incomplete"] else []) ++
  if (right.sequencePaths.filter (· ∈ common)).length ≠ common.length then
    [js "right-sequence-incomplete"] else []

def compareOrdering (left right : ProfileProjection) : Comparing CrossProfileOrderComparison :=
  let common := commonIncludedPaths left right
  if common.length < 2 then
    pure ⟨common, [js "fewer-than-two-common-included-paths"], .notApplicable, none⟩
  else if orderReasons left right common ≠ [] then do
    addEvidence common.length
    return ⟨common, uniqueSorted (orderReasons left right common), .unknown, none⟩
  else do
    let witness ← searchWitness (rankIn (right.sequencePaths.filter (· ∈ common))) none
      (left.sequencePaths.filter (· ∈ common))
    addEvidence (common.length + if witness = none then 0 else 1)
    return ⟨common, [], if witness = none then .same else .different, witness⟩

def contentKnown (document : EffectiveContextDocument) : Bool :=
  document.contentSha256 ≠ none ∧ document.contentState ≠ .identityOnly ∧
    document.contentState ≠ .unavailable ∧ document.truncation ≠ .unknown

/-- The lists of `compareContent`. -/
structure ContentProgress where
  differences : List CrossProfileContentDifference
  matchingPaths : List RelativePath
  reasons : List Text
  unknownPaths : List RelativePath

/-- A round of `compareContent`, on the documents of a path. -/
def compareDocuments (progress : ContentProgress) (path : RelativePath)
    (leftDocument rightDocument : EffectiveContextDocument) : ContentProgress :=
  if ¬ contentKnown leftDocument ∨ ¬ contentKnown rightDocument then
    { progress with
      reasons := progress.reasons ++
        (if ¬ contentKnown leftDocument then [js "left-content-incomplete"] else []) ++
        if ¬ contentKnown rightDocument then [js "right-content-incomplete"] else []
      unknownPaths := progress.unknownPaths ++ [path] }
  else
    match leftDocument.contentSha256, rightDocument.contentSha256 with
    | some leftDigest, some rightDigest =>
      if leftDigest ≠ rightDigest then
        { progress with
          differences := progress.differences ++ [⟨leftDigest, path, rightDigest⟩] }
      else if leftDocument.truncation = .front ∨ rightDocument.truncation = .front then
        { progress with
          reasons := progress.reasons ++ [js "truncated-content-prefix"]
          unknownPaths := progress.unknownPaths ++ [path] }
      else { progress with matchingPaths := progress.matchingPaths ++ [path] }
    | _, _ => progress

def compareContentAt (left right : ProfileProjection) (progress : ContentProgress)
    (path : RelativePath) : Comparing ContentProgress :=
  match documentAt left.resolution.documents path,
    documentAt right.resolution.documents path with
  | some leftDocument, some rightDocument =>
    pure (compareDocuments progress path leftDocument rightDocument)
  | _, _ => stop ⟨.invalidRelationship, "included path is missing its source document"⟩

def compareContent (left right : ProfileProjection) : Comparing CrossProfileContentComparison :=
  let common := commonIncludedPaths left right
  if common = [] then
    pure ⟨[], [], [js "no-common-included-paths"], .notApplicable, []⟩
  else do
    let progress ← common.foldlM (compareContentAt left right) ⟨[], [], [], []⟩
    addEvidence (progress.differences.length + progress.matchingPaths.length +
      progress.unknownPaths.length)
    return {
      differences := progress.differences
      matchingPaths := progress.matchingPaths
      reasonCodes := uniqueSorted progress.reasons
      state := dimensionState progress.differences.length progress.unknownPaths.length
      unknownPaths := progress.unknownPaths }

def overallState (states : List CrossProfileDimensionState) : CrossProfileOverall :=
  if .different ∈ states then .divergent
  else if .unknown ∈ states then .indeterminate
  else .observationalMatch

def pairComparison (targetPath : RelativePath)
    (pair : ProfileProjection × ProfileProjection) : Comparing CrossProfilePairComparison := do
  let scope ← compareScope pair.1 pair.2
  let ordering ← compareOrdering pair.1 pair.2
  let content ← compareContent pair.1 pair.2
  return {
    content
    id := js "comparison-pair:" ++
      (hash [some pair.1.summary.id, some pair.2.summary.id, some targetPath]).take 32
    leftProfileId := pair.1.summary.id
    ordering
    overall := overallState [scope.state, ordering.state, content.state]
    rightProfileId := pair.2.summary.id
    scope
    semanticRelation := if pair.1.resolution.profileId = pair.2.resolution.profileId
      then .distinctSurfaceContracts else .incompatibleProfileContracts }

/-! ## The comparison -/

def isUnknown (pair : CrossProfilePairComparison) : Bool :=
  pair.scope.state = .unknown ∨ pair.ordering.state = .unknown ∨ pair.content.state = .unknown

def surfaceKey (resolution : EffectiveContextResolution) : Text :=
  resolution.profileId ++ js "\u0000" ++ resolution.surfaceId

def aggregateDocuments (resolutions : List EffectiveContextResolution) : Nat :=
  (resolutions.map (·.documents.length)).sum

def aggregateAmbiguities (resolutions : List EffectiveContextResolution) : Nat :=
  (resolutions.map (·.ambiguities.length)).sum

def targetOf : List EffectiveContextResolution →
    Except CrossProfileComparisonError RelativePath
  | [] => .error ⟨.invalidRelationship, "comparison target is absent"⟩
  | first :: _ => .ok first.targetPath

variable (resolutions : List EffectiveContextResolution)

def checkResolutions (targetPath : RelativePath) : Except CrossProfileComparisonError Unit := do
  failIf (∃ resolution ∈ resolutions, resolution.targetPath ≠ targetPath) .invalidRelationship
    "cross-profile resolutions must describe one exact target path"
  failIf (¬ (resolutions.map surfaceKey).Nodup) .invalidRelationship
    "cross-profile resolutions must use distinct profile/surface contracts"
  failIf (aggregateDocuments resolutions > maximumAggregateDocuments) .resourceLimit
    "comparison documents exceed their aggregate limit"
  failIf (aggregateAmbiguities resolutions > maximumAggregateAmbiguities) .resourceLimit
    "comparison ambiguities exceed their aggregate limit"
  failIf (aggregateDocuments resolutions * (resolutions.length - 1) > maximumPairWork)
    .resourceLimit "comparison pair work exceeds its limit"

variable (targetPath : RelativePath)

/-- The fields of the result. -/
def comparison (profiles : List ProfileProjection) (pairs : List CrossProfilePairComparison) :
    CrossProfileComparison where
  analysisIsComplete := ¬ ((∃ resolution ∈ resolutions, resolution.analysisIsComplete = false) ∨
    ∃ pair ∈ pairs, isUnknown pair)
  pairs := pairs
  profiles := profiles.map (·.summary)
  targetPath := targetPath

def compareProjected (projected : List ProfileProjection) :
    Except CrossProfileComparisonError CrossProfileComparison := do
  let profiles := sortBy (comparingBytes (·.summary.id)) projected
  let pairs ← ((pairs profiles).mapM (pairComparison targetPath)).run' 0
  return comparison resolutions targetPath profiles pairs

def compareResolutions (resolutions : List EffectiveContextResolution) :
    Except CrossProfileComparisonError CrossProfileComparison := do
  let targetPath ← targetOf resolutions
  checkResolutions resolutions targetPath
  let projected ← resolutions.mapM projectProfile
  compareProjected resolutions targetPath projected

def compareEffectiveContexts (input : CompareEffectiveContextsInput) :
    Except CrossProfileComparisonError CrossProfileComparison := do
  failIf (input.contractVersion ≠ js "0.1.0") .invalidInput
    "comparison contract version is unsupported"
  failIf (input.recordKind ≠ js "agent-context-cross-profile-comparison-input") .invalidInput
    "comparison input record kind is unsupported"
  let resolutions ← resolutionArray input.resolutions
  compareResolutions resolutions

end AgentContextLint.CrossProfile
