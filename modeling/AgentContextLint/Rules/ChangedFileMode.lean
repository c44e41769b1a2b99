import AgentContextLint.Evidence.ChangedFileMetadata
import AgentContextLint.Resolver.EffectiveContext
import AgentContextLint.Rules.RuleScheduler

/-!
# Changed-file mode

Model of `packages/rules/src/changed-file-mode.ts`: which diagnostics of a run belong to the paths
that Git reports as changed. A scan scope is an object that is compared by identity, so a number
here; what is not issued by its module is `none`.
-/

namespace AgentContextLint

open Utf16 Utf8 Metered Sorting

/-! ## Evidence -/

inductive DiscoveryCandidateKind
  | configuration
  | evidence
  | instruction
  deriving DecidableEq

structure DiscoveryCandidate where
  kinds : List DiscoveryCandidateKind
  path : RelativePath

/-- The fields of the discovery index that are read here. -/
structure TargetedDiscoveryIndex where
  candidates : List DiscoveryCandidate
  isKnown : Bool

/-- A result of the scheduler. -/
structure ScheduledRules where
  success : RuleSchedulerSuccess
  issued : ∃ checks evaluate input limits,
    RuleScheduler.Schedules checks evaluate input limits (.ok success)

def ScheduledRules.output (scheduler : ScheduledRules) : RuleSchedulerOutput :=
  scheduler.success.output

abbrev ChangedFileScanScope := Nat

/-- What `createChangedFileModeEvidenceAuthority` is called with. -/
structure EvidenceAuthorityInput where
  /-- The configuration and the scope are issued for the repository of the selection. -/
  configurationMatchesSelection : Bool
  criticalPathsComplete : Bool
  discovery : TargetedDiscoveryIndex
  lockfile : RelativePath
  resolutions : List EffectiveContext.EffectiveContextResolution
  scheduler : ScheduledRules
  scope : ChangedFileScanScope

/-- What is on record of an authority. -/
structure ChangedFileModeEvidence where
  controlPaths : List RelativePath
  criticalPathsComplete : Bool
  discoveryComplete : Bool
  instructionPaths : List RelativePath
  resolutions : List EffectiveContext.EffectiveContextResolution
  scheduler : ScheduledRules
  scope : ChangedFileScanScope

/-! ## Metadata -/

/-- The changes of Git, whose paths are canonical. -/
structure GitChanges where
  changes : List GitChangedPath
  canonical : ∀ change ∈ changes, ∀ path ∈ ChangedFileMetadata.namedPaths change,
    RepositoryPath.isRepositoryRelativePath path = true

inductive GitChangedFileMetadata
  | fallback (reason : GitChangedFileFallbackReason)
  | ready (changes : GitChanges)

structure IssuedGitMetadata where
  metadata : GitChangedFileMetadata
  scope : ChangedFileScanScope

structure ChangedFileModeInput where
  evidence : Option ChangedFileModeEvidence
  metadata : Option IssuedGitMetadata
  scope : Option ChangedFileScanScope

/-! ## Results -/

inductive ChangedFileModeFallbackReason
  | configurationChanged
  | gitMetadataUnavailable
  | incompleteDiscovery
  | incompleteParserResult
  | incompleteResolution
  | invalidInput
  | repositoryChanged
  | resourceLimit
  | structuralChange
  | unmappedChangedPath
  | unmappedInstructionChange
  | untrackedFiles

inductive ScanMode
  | changed
  | full

structure ChangedFileModeResult where
  changedPaths : List RelativePath
  excludedDiagnosticIds : List Text
  includedDiagnosticIds : List Text
  mode : ScanMode
  reason : Option ChangedFileModeFallbackReason
  selectedPaths : List RelativePath

namespace ChangedFileMode

open EffectiveContext (EffectiveContextAmbiguityKind)

/-! ## Limits -/

def maximumChangedPathsForSubset : Nat := TargetSampler.defaultLimits.maximumCriticalPaths

def maximumControlPaths : Nat := 4096

def maximumInstructionCandidatePaths : Nat := 65536

def maximumResolutions : Nat := 100000

def maximumSelectedPaths : Nat := 1000000

/-! ## The authority -/

def resolutionIdentity (resolution : EffectiveContext.EffectiveContextResolution) : Text :=
  resolution.profileId ++ [0] ++ resolution.surfaceId ++ [0] ++ resolution.targetPath

def resolutionKey (resolution : EffectiveContext.EffectiveContextResolution) : Text :=
  resolution.targetPath ++ [0] ++ resolution.profileId ++ [0] ++ resolution.surfaceId

def resolutionArray (value : List EffectiveContext.EffectiveContextResolution) :
    Option (List EffectiveContext.EffectiveContextResolution) :=
  if value.length > maximumResolutions ∨ ¬ (value.map resolutionIdentity).Nodup then none
  else some (sortBy (comparingBytes resolutionKey) value)

variable (discovery : TargetedDiscoveryIndex)

def pathsOfKind (kind : DiscoveryCandidateKind) : List RelativePath :=
  (discovery.candidates.filter (kind ∈ ·.kinds)).map (·.path)

def discoveryPaths (kind : DiscoveryCandidateKind) (maximum : Nat) : Option (List RelativePath) :=
  let paths := pathsOfKind discovery kind
  if paths.length ≤ maximum then some (sortBy compareBytes paths) else none

def configurationFileName : RelativePath := js ".agent-context-lint.yml"

def controlPaths (lockfile : RelativePath) (discovery : TargetedDiscoveryIndex) :
    Option (List RelativePath) :=
  let paths := (configurationFileName :: lockfile :: pathsOfKind discovery .configuration).eraseDups
  if paths.length ≤ maximumControlPaths then some (sortBy compareBytes paths) else none

/-- `none` where the source throws. -/
def createChangedFileModeEvidenceAuthority (input : EvidenceAuthorityInput) :
    Option ChangedFileModeEvidence := do
  let resolutions ← resolutionArray input.resolutions
  let controls ← controlPaths input.lockfile input.discovery
  let instructionPaths ←
    discoveryPaths input.discovery .instruction maximumInstructionCandidatePaths
  if input.configurationMatchesSelection = true ∧
      (∀ path ∈ instructionPaths, path ∈ input.scheduler.output.sources.map (·.path)) then
    some {
      controlPaths := controls
      criticalPathsComplete := input.criticalPathsComplete
      discoveryComplete := input.discovery.isKnown
      instructionPaths
      resolutions
      scheduler := input.scheduler
      scope := input.scope }
  else none

/-! ## Selection of diagnostics -/

/-- `ACL100` to `ACL109` -/
def alwaysVisibleRules : List Text :=
  (List.range 10).map fun index => js ("ACL" ++ toString (100 + index))

def evidencePaths : RelatedEvidenceBody → List RelativePath
  | .source location => [location.path]
  | .repositoryFact fact => fact.subjectPath.toList ++ fact.locations.map (·.path)
  | .resolution resolution => resolution.sourceLocations.map (·.path)
  | .spec _ => []

def diagnosticPaths (diagnostic : Diagnostic) : List RelativePath :=
  (diagnostic.primary.path :: diagnostic.related.flatMap (evidencePaths ·.body)).eraseDups

def sortedIds (values : List Diagnostic) : List Text :=
  sortBy compareBytes (values.map (·.id))

variable (scheduler : ScheduledRules)

def isRootDiagnostic (diagnostic : Diagnostic) : Bool :=
  diagnostic.ruleId ∈ alwaysVisibleRules &&
    diagnostic.id ∈ scheduler.output.visibleDiagnostics.map (·.id) &&
    diagnostic.primary.path = RepositoryPath.repositoryRoot

def includedDiagnostics (selectedPaths : List RelativePath) : ScanMode → List Diagnostic
  | .full => scheduler.output.bundle.diagnostics
  | .changed => scheduler.output.bundle.diagnostics.filter fun diagnostic =>
    isRootDiagnostic scheduler diagnostic || (diagnosticPaths diagnostic).any (· ∈ selectedPaths)

def result (changedPaths selectedPaths : List RelativePath) (mode : ScanMode)
    (reason : Option ChangedFileModeFallbackReason) : ChangedFileModeResult :=
  let included := includedDiagnostics scheduler selectedPaths mode
  let includedSet := included.map (·.id)
  let excluded := scheduler.output.bundle.diagnostics.filter (·.id ∉ includedSet)
  { changedPaths
    excludedDiagnosticIds := sortedIds excluded
    includedDiagnosticIds := sortedIds included
    mode
    reason
    selectedPaths := sortBy compareBytes selectedPaths }

def full (scheduler : ScheduledRules) (changedPaths selectedPaths : List RelativePath)
    (reason : ChangedFileModeFallbackReason) : ChangedFileModeResult :=
  result scheduler changedPaths selectedPaths .full (some reason)

def fullWithoutScheduler : ChangedFileModeResult where
  changedPaths := []
  excludedDiagnosticIds := []
  includedDiagnosticIds := []
  mode := .full
  reason := some .invalidInput
  selectedPaths := []

/-! ## The closure of the changes -/

def dependencyScopeAmbiguities : List EffectiveContextAmbiguityKind :=
  [.activation, .importResolution, .partialProfile, .targetScope]

def dependencyScopeComplete (resolution : EffectiveContext.EffectiveContextResolution) : Bool :=
  resolution.ambiguities.all (·.kind ∉ dependencyScopeAmbiguities)

def importTargets (resolution : EffectiveContext.EffectiveContextResolution) : List RelativePath :=
  resolution.occurrences.filterMap (·.targetPath)

/-- The target, the documents neither inactive nor shadowed, and the targets of imports. -/
def resolutionPaths (resolution : EffectiveContext.EffectiveContextResolution) :
    List RelativePath :=
  (resolution.targetPath ::
    ((resolution.documents.filter fun document =>
      document.state ≠ .inactive ∧ document.state ≠ .shadowed).map (·.path) ++
    importTargets resolution)).eraseDups

/-- One round of the loop over the resolutions; it fails with the paths selected so far. -/
def selectResolution (changedPaths selected : List RelativePath)
    (resolution : EffectiveContext.EffectiveContextResolution) :
    Except (ChangedFileModeFallbackReason × List RelativePath)
      (List RelativePath) :=
  let paths := resolutionPaths resolution
  let selected :=
    if ∃ path ∈ changedPaths, path ∈ paths then (selected ++ paths).eraseDups else selected
  if selected.length > maximumSelectedPaths then .error (.resourceLimit, selected)
  else .ok selected

def mappedInstructions (evidence : ChangedFileModeEvidence) : List RelativePath :=
  evidence.resolutions.flatMap fun resolution =>
    resolution.documents.map (·.path) ++ importTargets resolution

variable (evidence : ChangedFileModeEvidence)

def isRepresented (path : RelativePath) : Bool :=
  evidence.scheduler.output.visibleDiagnostics.any fun diagnostic =>
    path ∈ diagnosticPaths diagnostic

/-- One round of the loop over the changed paths. -/
def unmappedReason (path : RelativePath) : Option ChangedFileModeFallbackReason :=
  if path ∈ evidence.instructionPaths ∧ path ∉ mappedInstructions evidence then
    some .unmappedInstructionChange
  else if path ∉ evidence.instructionPaths ∧ path ∉ mappedInstructions evidence ∧
      path ∉ evidence.resolutions.map (·.targetPath) ∧ isRepresented evidence path = false then
    some .unmappedChangedPath
  else none

def changedPathsOf (changes : List GitChangedPath) : List RelativePath :=
  sortBy compareBytes (changes.flatMap ChangedFileMetadata.namedPaths).eraseDups

def isStructural : GitChangeStatus → Bool
  | .deleted => true
  | .renamed => true
  | .copied => true
  | .typeChanged => true
  | .added => false
  | .modified => false

/-- The paths that some changes select, or the reason for a full scan with the paths selected till
then. -/
def selectPaths (changes : List GitChangedPath) (changedPaths : List RelativePath) :
    Except (ChangedFileModeFallbackReason × List RelativePath)
      (List RelativePath) := do
  refuseIf (changedPaths.length > maximumChangedPathsForSubset) (.resourceLimit, changedPaths)
  refuseIf (∃ change ∈ changes, isStructural change.status = true)
    (.structuralChange, changedPaths)
  refuseIf (∃ path ∈ changedPaths, path ∈ evidence.controlPaths)
    (.configurationChanged, changedPaths)
  refuseIf (∃ source ∈ evidence.scheduler.output.sources, source.parseState ≠ .complete)
    (.incompleteParserResult, changedPaths)
  refuseIf (∃ resolution ∈ evidence.resolutions, dependencyScopeComplete resolution = false)
    (.incompleteResolution, changedPaths)
  let selected ← evidence.resolutions.foldlM (selectResolution changedPaths) changedPaths
  match changedPaths.findSome? (unmappedReason evidence) with
  | some reason => .error (reason, selected)
  | none => .ok selected

/-! ## The plan -/

def fallbackReason : GitChangedFileFallbackReason → ChangedFileModeFallbackReason
  | .repositoryChanged => .repositoryChanged
  | .untrackedFiles => .untrackedFiles
  | _ => .gitMetadataUnavailable

def planChanges (changes : List GitChangedPath) : ChangedFileModeResult :=
  if evidence.discoveryComplete = false then full evidence.scheduler [] [] .incompleteDiscovery
  else if evidence.criticalPathsComplete = false then full evidence.scheduler [] [] .resourceLimit
  else
    let changedPaths := changedPathsOf changes
    match selectPaths evidence changes changedPaths with
    | .error (reason, selected) => full evidence.scheduler changedPaths selected reason
    | .ok selected => result evidence.scheduler changedPaths selected .changed none

/-- `none`: no record of the right shape. -/
def planChangedFileMode (input : Option ChangedFileModeInput) : ChangedFileModeResult :=
  match input with
  | none => fullWithoutScheduler
  | some { evidence := none, .. } => fullWithoutScheduler
  | some { evidence := some evidence, metadata, scope } =>
    match metadata with
    | none => full evidence.scheduler [] [] .invalidInput
    | some issued =>
      if some evidence.scope ≠ scope ∨ some issued.scope ≠ scope then
        full evidence.scheduler [] [] .invalidInput
      else
        match issued.metadata with
        | .fallback reason => full evidence.scheduler [] [] (fallbackReason reason)
        | .ready changes => planChanges evidence changes.changes

end ChangedFileMode

end AgentContextLint
