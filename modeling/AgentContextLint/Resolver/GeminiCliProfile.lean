import AgentContextLint.Evidence.ImportGraph
import AgentContextLint.Lib.Sorting

/-!
# The Gemini CLI profile

Model of `packages/resolver/src/gemini-cli-profile.ts`: from a closed inventory of candidate files
and a trace of events, which context files a session has loaded after each event.

What lies outside is a parameter (`GeminiHost`): the merge of the settings layers, a read of a
file with its parse, the load of its imports, and the collation of the host. A read or parse that
throws is a file without syntax; every access to the repository is put on record (`reads`).
-/

namespace AgentContextLint

open Utf16 Utf8 Metered Sorting
open RepositoryPath (joinSegments pathSegments repositoryRoot)

/-! ## Snapshots -/

inductive GeminiCliCandidateKind
  | directory
  | file
  | unavailable
  deriving DecidableEq

structure GeminiCliCandidateSnapshot where
  identity : Option Text
  ignoredBy : List Text
  kind : GeminiCliCandidateKind
  path : RelativePath

inductive GeminiCliEventKind
  | directoryAdd
  | launch
  | listDirectory
  | memoryReload
  | readPath
  | writePath
  deriving DecidableEq

structure GeminiCliEventSnapshot where
  id : Text
  kind : GeminiCliEventKind
  path : Option RelativePath

/-- `"explicit-synthetic"` and `"unavailable"`. -/
inductive GeminiExternalContext
  | explicitSynthetic
  | unavailable
  deriving DecidableEq

inductive GeminiTrustState
  | trusted
  | untrusted
  | unknown
  deriving DecidableEq

/-- A layer of settings, which only the merge looks into. -/
structure GeminiSettingsLayerInput where
  bytes : List UInt8
  kind : String
  path : RelativePath
  trustState : String

structure ResolveGeminiCliInput where
  boundaryMarkerDirectories : List RelativePath
  candidates : List GeminiCliCandidateSnapshot
  events : List GeminiCliEventSnapshot
  externalContext : GeminiExternalContext
  settingsLayers : List GeminiSettingsLayerInput
  trustState : GeminiTrustState
  workspaceRoots : List RelativePath

/-! ## Settings and syntax -/

inductive GeminiImportFormat
  | flat
  | tree
  deriving DecidableEq

structure GeminiSettingsValues where
  discoveryMaxDirs : Nat
  fileNames : List Text
  importFormat : GeminiImportFormat
  includeDirectories : List RelativePath
  loadMemoryFromIncludeDirectories : Bool
  memoryBoundaryMarkers : List Text

structure GeminiSettingsIssue where
  message : String
  path : RelativePath

structure GeminiSettingsMergeResult where
  issues : List GeminiSettingsIssue
  isComplete : Bool
  values : GeminiSettingsValues

/-- The fields of a parsed context file that the resolver and its readers use. -/
structure GeminiContextParseResult where
  documentId : Text
  imports : List ImportReference
  text : Text

/-- The arguments of `loadImportGraph` that vary. -/
structure GeminiImportRequest where
  boundary : RelativePath
  entryPath : RelativePath
  maxDepth : Nat

/-! ## Decisions -/

inductive GeminiCliIssueCode
  | absoluteImportUnsupported
  | candidateUnavailable
  | discoveryUncertain
  | flatImportDepthSafetyCap
  | ignoreMemoryContradiction
  | importPartial
  | includeRootUnavailable
  | settingsContradiction
  | syntaxFailed
  | targetOutsideRoots
  | untrustedWorkspace
  deriving DecidableEq

def GeminiCliIssueCode.text : GeminiCliIssueCode → Text
  | .absoluteImportUnsupported => js "absolute-import-unsupported"
  | .candidateUnavailable => js "candidate-unavailable"
  | .discoveryUncertain => js "discovery-uncertain"
  | .flatImportDepthSafetyCap => js "flat-import-depth-safety-cap"
  | .ignoreMemoryContradiction => js "ignore-memory-contradiction"
  | .importPartial => js "import-partial"
  | .includeRootUnavailable => js "include-root-unavailable"
  | .settingsContradiction => js "settings-contradiction"
  | .syntaxFailed => js "syntax-failed"
  | .targetOutsideRoots => js "target-outside-roots"
  | .untrustedWorkspace => js "untrusted-workspace"

structure GeminiCliIssue where
  code : GeminiCliIssueCode
  evidenceRefs : List String
  eventId : Option Text
  path : Option RelativePath
  reason : String

/-- `"jit"` and `"static"`. -/
inductive GeminiPhase
  | onDemand
  | static
  deriving DecidableEq

structure GeminiCliDocumentDecision where
  firstLoadedEventId : Text
  ignoredBy : List Text
  importGraph : Option ImportGraphResult
  path : RelativePath
  phase : GeminiPhase
  /-- `"loaded"`, else `"unavailable"`. -/
  isLoaded : Bool
  syntaxResult : Option GeminiContextParseResult

inductive GeminiEventState
  | applied
  | ignoredUntrusted
  | outsideRoots

structure GeminiCliEventDecision where
  added : List RelativePath
  id : Text
  kind : GeminiCliEventKind
  loadedAfterEvent : List RelativePath
  path : Option RelativePath
  state : GeminiEventState

structure GeminiCliResolution where
  analysisIsPartial : Bool
  documents : List GeminiCliDocumentDecision
  events : List GeminiCliEventDecision
  externalContext : GeminiExternalContext
  issues : List GeminiCliIssue
  loadedPaths : List RelativePath
  settings : GeminiSettingsMergeResult
  staticPaths : List RelativePath
  trustState : GeminiTrustState
  workspaceRoots : List RelativePath

inductive GeminiCliProfileErrorCode
  | invalidInput
  | resourceLimit

/-- What `resolveGeminiCliContext` throws: its own errors, and those of the import loader. -/
inductive GeminiCliProfileFailure
  | profile (code : GeminiCliProfileErrorCode) (message : String)
  | imports (message : String)

/-- An access to the repository. -/
inductive GeminiRead
  | file (path : RelativePath)
  | imports (request : GeminiImportRequest)

structure GeminiHost where
  /-- `mergeGeminiSettingsLayers` -/
  mergeSettings : List GeminiSettingsLayerInput →
    Except (GeminiCliProfileErrorCode × String) GeminiSettingsMergeResult
  /-- `repository.readFile` and `parseGeminiContext` -/
  parse : (path scopeRoot : RelativePath) → Option GeminiContextParseResult
  /-- `loadImportGraph` -/
  loadImports : GeminiImportRequest → Except String ImportGraphResult
  /-- `localeCompare` -/
  compareLocale : Text → Text → Ordering

namespace GeminiCliProfile

/-! ## Limits -/

def maximumBoundaryDirectories : Nat := 4096

def maximumCandidates : Nat := 65536

def maximumEvents : Nat := 4096

def maximumIdentityBytes : Nat := 16384

def maximumIgnoredBy : Nat := 32

def maximumIssues : Nat := 4096

def maximumPathBytes : Nat := 16384

def maximumRoots : Nat := 256

/-! ## Fields -/

def failIf (condition : Prop) [Decidable condition] (code : GeminiCliProfileErrorCode)
    (message : String) : Except GeminiCliProfileFailure Unit :=
  refuseIf condition (.profile code message)

def pathValue (value : Text) (label : String) : Except GeminiCliProfileFailure Unit := do
  failIf (¬ RepositoryPath.isRepositoryRelativePath value) .invalidInput
    (label ++ " must be a canonical repository path")
  failIf (byteLength value > maximumPathBytes) .resourceLimit (label ++ " exceeds the path limit")

def boundedArray {α : Type} (value : List α) (maximum : Nat) (label : String) :
    Except GeminiCliProfileFailure Unit :=
  failIf (value.length > maximum) .resourceLimit (label ++ " exceeds its limit")

def stringValue (value : Text) (label : String) : Except GeminiCliProfileFailure Unit :=
  failIf (value = [] ∨ byteLength value > maximumIdentityBytes) .invalidInput
    (label ++ " must be a bounded string")

/-- One round of the map over the candidates, behind the paths seen so far. -/
def candidateSnapshot (seenPaths : List RelativePath) (entry : GeminiCliCandidateSnapshot × Nat) :
    Except GeminiCliProfileFailure (List RelativePath) := do
  pathValue entry.1.path ("candidates[" ++ toString entry.2 ++ "].path")
  failIf (entry.1.path ∈ seenPaths) .invalidInput "candidate paths must be unique"
  boundedArray entry.1.ignoredBy maximumIgnoredBy "candidate ignoredBy"
  entry.1.ignoredBy.forM (stringValue · "ignore source")
  entry.1.identity.toList.forM (stringValue · "candidate identity")
  return entry.1.path :: seenPaths

/-- One round of the map over the events, behind the identifiers seen so far. -/
def eventSnapshot (eventIds : List Text) (event : GeminiCliEventSnapshot) :
    Except GeminiCliProfileFailure (List Text) := do
  stringValue event.id "event id"
  failIf (event.id ∈ eventIds) .invalidInput "event ids must be unique"
  event.path.toList.forM (pathValue · "event path")
  failIf (event.kind ≠ .memoryReload ∧ event.path = none) .invalidInput
    "non-reload events require a path"
  return event.id :: eventIds

def snapshot (input : ResolveGeminiCliInput) :
    Except GeminiCliProfileFailure ResolveGeminiCliInput := do
  boundedArray input.candidates maximumCandidates "candidates"
  let _ ← input.candidates.zipIdx.foldlM candidateSnapshot []
  boundedArray input.events maximumEvents "events"
  let _ ← input.events.foldlM eventSnapshot []
  failIf (input.events.head?.map (·.kind) ≠ some .launch) .invalidInput
    "event trace must begin with launch"
  boundedArray input.workspaceRoots maximumRoots "workspaceRoots"
  input.workspaceRoots.forM (pathValue · "workspace root")
  failIf (input.workspaceRoots = []) .invalidInput "workspaceRoots must not be empty"
  boundedArray input.boundaryMarkerDirectories maximumBoundaryDirectories
    "boundaryMarkerDirectories"
  input.boundaryMarkerDirectories.forM (pathValue · "boundary marker directory")
  boundedArray input.settingsLayers 8 "settingsLayers"
  return { input with
    boundaryMarkerDirectories := sortBy compareUnits input.boundaryMarkerDirectories.eraseDups
    workspaceRoots := input.workspaceRoots.eraseDups }

/-! ## Directories -/

def contains (root candidate : RelativePath) : Bool :=
  root == repositoryRoot || candidate == root ||
    (root ++ [0x2f]).isPrefixOf candidate

def parent (path : RelativePath) : RelativePath :=
  match path.reverse.dropWhile (· ≠ 0x2f) with
  | [] => repositoryRoot
  | _ :: front => front.reverse

def ancestors (path : RelativePath) : List RelativePath :=
  if path = repositoryRoot then [repositoryRoot]
  else
    let parts := pathSegments path
    repositoryRoot ::
      (List.range parts.length).map fun index =>
        joinSegments (parts.take (index + 1))

def nearestBoundary (path root : RelativePath) (markerDirectories : List RelativePath)
    (markersEnabled : Bool) : RelativePath :=
  if markersEnabled then
    let chain := (ancestors path).filter fun candidate =>
      contains candidate root || contains root candidate
    (chain.reverse.find? (markerDirectories.contains ·)).getD root
  else root

def directoriesBetween (ceiling leaf : RelativePath) : List RelativePath :=
  (ancestors leaf).filter (contains ceiling)

variable (host : GeminiHost)

def compareRoots (left right : RelativePath) : Ordering :=
  (compare (pathSegments right).length
    (pathSegments left).length).then (host.compareLocale left right)

def deepestRoot (roots : List RelativePath) (path : RelativePath) : Option RelativePath :=
  (sortBy (compareRoots host) (roots.filter (contains · path))).head?

def join (directory : RelativePath) (name : Text) : RelativePath :=
  if directory = repositoryRoot then name else directory ++ [0x2f] ++ name

/-! ## Candidates -/

/-- `candidateByPath.get` -/
def candidateAt (candidates : List GeminiCliCandidateSnapshot) (path : RelativePath) :
    Option GeminiCliCandidateSnapshot := candidates.find? (·.path = path)

def identityKey (candidate : GeminiCliCandidateSnapshot) : Text :=
  match candidate.identity with
  | none => js "path:" ++ candidate.path
  | some identity => js "identity:" ++ identity

/-- Of candidates with one key the first. -/
def firstOfEach : (seen : List Text) → List GeminiCliCandidateSnapshot →
    List GeminiCliCandidateSnapshot
  | _, [] => []
  | seen, candidate :: rest =>
    if identityKey candidate ∈ seen then firstOfEach seen rest
    else candidate :: firstOfEach (identityKey candidate :: seen) rest

/-- What the closures of `resolveGeminiCliContext` read and never change. -/
structure Context where
  host : GeminiHost
  input : ResolveGeminiCliInput
  settings : GeminiSettingsMergeResult

namespace Context

variable (context : Context)

def markersEnabled : Bool := context.settings.values.memoryBoundaryMarkers.length > 0

def boundaryOf (directory : RelativePath) : RelativePath :=
  nearestBoundary directory directory context.input.boundaryMarkerDirectories
    context.markersEnabled

def candidatesForDirectories (directories : List RelativePath) : List GeminiCliCandidateSnapshot :=
  let found := directories.flatMap fun directory =>
    context.settings.values.fileNames.filterMap fun name =>
      (candidateAt context.input.candidates (join directory name)).filter (·.kind ≠ .directory)
  sortBy (fun left right => context.host.compareLocale left.path right.path) (firstOfEach [] found)

def startupCandidates (activeRoots : List RelativePath) : List GeminiCliCandidateSnapshot :=
  context.candidatesForDirectories
    (activeRoots.flatMap fun root => directoriesBetween (context.boundaryOf root) root)

variable (activeRoots : List RelativePath)

def rootsAfter (event : GeminiCliEventSnapshot) : List RelativePath :=
  match event.kind, event.path with
  | .directoryAdd, some path => if path ∈ activeRoots then activeRoots else activeRoots ++ [path]
  | _, _ => activeRoots

/-- What a path event selects; none outside of the roots. -/
def pathCandidates (path : RelativePath) : Option (List GeminiCliCandidateSnapshot) :=
  (deepestRoot context.host activeRoots path).map fun root =>
    let targetDirectory :=
      if (candidateAt context.input.candidates path).map (·.kind) = some .directory then path
      else parent path
    context.candidatesForDirectories (directoriesBetween (context.boundaryOf root) targetDirectory)

/-- What an event selects, with the roots after it; none outside of the roots. -/
def selection (event : GeminiCliEventSnapshot) : Option (List GeminiCliCandidateSnapshot) :=
  match event.kind, event.path with
  | .launch, _ => some (context.startupCandidates activeRoots)
  | .memoryReload, _ => some (context.startupCandidates activeRoots)
  | .directoryAdd, some _ =>
    some (if context.settings.values.loadMemoryFromIncludeDirectories then
      context.startupCandidates activeRoots else [])
  | _, some path => context.pathCandidates activeRoots path
  | _, none => some []

end Context

/-! ## The state of the loop -/

def issue (code : GeminiCliIssueCode) (reason : String) (evidenceRefs : List String)
    (path : Option RelativePath) (eventId : Option Text) : GeminiCliIssue :=
  { code, evidenceRefs, eventId, path, reason }

def appendIssue (issues : List GeminiCliIssue) (value : GeminiCliIssue) : List GeminiCliIssue :=
  if issues.length < maximumIssues then issues ++ [value] else issues

structure State where
  activeRoots : List RelativePath
  documents : List GeminiCliDocumentDecision
  events : List GeminiCliEventDecision
  issues : List GeminiCliIssue
  loadedIdentities : List Text
  loadedPaths : List RelativePath
  reads : List GeminiRead
  staticPaths : List RelativePath

variable (state : State)

def State.report (value : GeminiCliIssue) : State :=
  { state with issues := appendIssue state.issues value }

def State.reportIf (condition : Prop) [Decidable condition] (value : GeminiCliIssue) :
    State := if condition then state.report value else state

/-- A set in the order of insertion. -/
def insert (value : Text) (set : List Text) : List Text :=
  if value ∈ set then set else set ++ [value]

/-- The start of `loadCandidate`, for an identity that is not loaded. -/
def State.mark (candidate : GeminiCliCandidateSnapshot) (phase : GeminiPhase) (eventId : Text) :
    State :=
  { state with
    loadedIdentities := state.loadedIdentities ++ [identityKey candidate]
    loadedPaths := insert candidate.path state.loadedPaths
    staticPaths :=
      if phase = .static then insert candidate.path state.staticPaths else state.staticPaths
    : State }.reportIf (candidate.ignoredBy ≠ [])
      (issue .ignoreMemoryContradiction
        "Ignore matching is reported but does not deactivate pinned memory discovery."
        ["GEM-IGN-003", "GEM-GAP-008"] (some candidate.path) (some eventId))

def State.push (document : GeminiCliDocumentDecision) : State :=
  { state with documents := state.documents ++ [document] }

def State.read (access : GeminiRead) : State :=
  { state with reads := state.reads ++ [access] }

variable (context : Context)

/-- The issues of a file that was read, behind its imports. -/
def State.reportFile (candidate : GeminiCliCandidateSnapshot)
    (syntaxResult : Option GeminiContextParseResult) (graph : ImportGraphResult) (eventId : Text) :
    State :=
  let absolute := ∃ result ∈ syntaxResult, ∃ reference ∈ result.imports,
    reference.rawSpecifier.head? = some 0x2f
  ((state.reportIf absolute (issue .absoluteImportUnsupported
      ("Pinned Gemini permits contained absolute imports, but C10 rejects them safely pending a " ++
        "boundary-aware absolute-path contract.")
      ["GEM-IMP-003"] (some candidate.path) (some eventId))).reportIf
    (context.settings.values.importFormat = .flat) (issue .flatImportDepthSafetyCap
      ("Pinned flat mode lacks its documented depth limit; the linter applies its own finite " ++
        "safety cap.")
      ["GEM-IMP-006", "GEM-GAP-004"] (some candidate.path) (some eventId))).reportIf
    (graph.state = .incomplete) (issue .importPartial
      "One or more imports were unavailable, rejected, cyclic, or resource-limited."
      ["GEM-IMP-003", "GEM-IMP-005", "GEM-IMP-006"] (some candidate.path) (some eventId))

def importRequest (candidate : GeminiCliCandidateSnapshot) : GeminiImportRequest where
  boundary := context.boundaryOf (parent candidate.path)
  entryPath := candidate.path
  maxDepth := if context.settings.values.importFormat = .tree then 5 else 32

/-- `loadCandidate`, and whether it loaded the file. -/
def loadCandidate (phase : GeminiPhase) (eventId : Text) (state : State)
    (candidate : GeminiCliCandidateSnapshot) : Except GeminiCliProfileFailure (State × Bool) :=
  if identityKey candidate ∈ state.loadedIdentities then .ok (state, false)
  else
    let state := state.mark candidate phase eventId
    let document := {
      firstLoadedEventId := eventId
      ignoredBy := candidate.ignoredBy
      importGraph := none
      path := candidate.path
      phase
      isLoaded := false
      syntaxResult := none }
    if candidate.kind = .unavailable then
      .ok ((state.report (issue .candidateUnavailable
        "Selected context bytes are unavailable through the safe repository facade."
        ["GEM-LOC-002"] (some candidate.path) (some eventId))).push document, true)
    else do
      let state := state.read (.file candidate.path)
      let syntaxResult := context.host.parse candidate.path (parent candidate.path)
      let state := state.reportIf (syntaxResult = none) (issue .syntaxFailed
        "Selected context could not be read or parsed safely." ["GEM-IMP-001"]
        (some candidate.path) (some eventId))
      let request := importRequest context candidate
      let graph ← (context.host.loadImports request).mapError .imports
      let state := (state.read (.imports request)).reportFile context candidate syntaxResult graph
        eventId
      return (state.push { document with
        importGraph := some graph, isLoaded := true, syntaxResult }, true)

/-- The loop over the selected candidates, with the paths that it added. -/
def loadCandidates (context : Context) (phase : GeminiPhase) (eventId : Text) :
    State → List RelativePath → List GeminiCliCandidateSnapshot →
    Except GeminiCliProfileFailure (State × List RelativePath)
  | state, added, [] => .ok (state, added)
  | state, added, candidate :: rest => do
    let (state, loaded) ← loadCandidate context phase eventId state candidate
    loadCandidates context phase eventId state
      (if loaded then added ++ [candidate.path] else added) rest

/-! ## Events -/

def State.decide (event : GeminiCliEventSnapshot) (added : List RelativePath)
    (decided : GeminiEventState) : State :=
  { state with
    events := state.events ++ [{
      added
      id := event.id
      kind := event.kind
      loadedAfterEvent := sortBy compareUnits state.loadedPaths
      path := event.path
      state := decided }] }

def phaseOf : GeminiCliEventKind → GeminiPhase
  | .launch => .static
  | .memoryReload => .static
  | .directoryAdd => .static
  | .listDirectory => .onDemand
  | .readPath => .onDemand
  | .writePath => .onDemand

/-- The sets that a reload clears, and the roots that a directory is added to. -/
def State.enter (event : GeminiCliEventSnapshot) : State :=
  let state := { state with activeRoots := Context.rootsAfter state.activeRoots event }
  if event.kind = .memoryReload then
    { state with loadedIdentities := [], loadedPaths := [], staticPaths := [] }
  else state

def untrustedEvent (event : GeminiCliEventSnapshot) : State :=
  (state.reportIf (event.kind = .launch) (issue .untrustedWorkspace
    "Workspace and JIT memory are suppressed without explicit trust." ["GEM-LOC-005"] event.path
    (some event.id))).decide event [] .ignoredUntrusted

def trustedEvent (state : State) (event : GeminiCliEventSnapshot) :
    Except GeminiCliProfileFailure State := do
  let state := state.enter event
  match context.selection state.activeRoots event with
  | none => return (state.report (issue .targetOutsideRoots
      "JIT target is outside every trusted workspace root." ["GEM-JIT-002"] event.path
      (some event.id))).decide event [] .outsideRoots
  | some selected => do
    let (state, added) ← loadCandidates context (phaseOf event.kind) event.id state [] selected
    return state.decide event added .applied

/-- One round of the loop over the events. -/
def applyEvent (state : State) (event : GeminiCliEventSnapshot) :
    Except GeminiCliProfileFailure State :=
  if context.input.trustState ≠ .trusted then .ok (untrustedEvent state event)
  else trustedEvent context state event

/-! ## The resolver -/

/-- The include directories that are not in the inventory, and the contradictions of the settings. -/
def settingsIssues (context : Context) : List GeminiCliIssue :=
  let values := context.settings.values
  let initial := context.settings.issues.map fun entry =>
    issue .discoveryUncertain entry.message ["GEM-SET-001", "GEM-SET-006"] (some entry.path) none
  let unavailable := values.includeDirectories.filter fun path =>
    (candidateAt context.input.candidates path).map (·.kind) ≠ some .directory
  let issues := unavailable.foldl (fun issues path => appendIssue issues (issue
    .includeRootUnavailable "Configured include directory is absent from the authorized inventory."
    ["GEM-SET-002"] (some path) none)) initial
  let issues := if values.discoveryMaxDirs ≠ 200 then appendIssue issues (issue
    .settingsContradiction "discoveryMaxDirs has no effect in the pinned ancestor/JIT path."
    ["GEM-SET-004"] none none) else issues
  if values.includeDirectories ≠ [] then appendIssue issues (issue .settingsContradiction
    ("Include-root reload behavior remains contradicted; roots and refresh events are reported " ++
      "separately.") ["GEM-SET-003"] none none) else issues

def initialRoots (context : Context) : List RelativePath :=
  let included := context.settings.values.includeDirectories.filter fun path =>
    (candidateAt context.input.candidates path).map (·.kind) = some .directory
  sortBy compareUnits (context.input.workspaceRoots ++ included).eraseDups

def initialState (context : Context) : State where
  activeRoots := initialRoots context
  documents := []
  events := []
  issues := settingsIssues context
  loadedIdentities := []
  loadedPaths := []
  reads := []
  staticPaths := []

/-- The fields of the result. -/
def resolution (state : State) : GeminiCliResolution where
  analysisIsPartial := state.issues ≠ [] || !context.settings.isComplete
  documents := state.documents
  events := state.events
  externalContext := context.input.externalContext
  issues := state.issues.take maximumIssues
  loadedPaths := sortBy compareUnits state.loadedPaths
  settings := context.settings
  staticPaths := sortBy compareUnits state.staticPaths
  trustState := context.input.trustState
  workspaceRoots := sortBy compareUnits state.activeRoots

/-- The settings and the inventory that a run works with. -/
def contextOf (rawInput : ResolveGeminiCliInput) : Except GeminiCliProfileFailure Context := do
  let input ← snapshot rawInput
  let settings ← (host.mergeSettings input.settingsLayers).mapError fun error =>
    .profile error.1 error.2
  return { host, input, settings }

/-- The resolution, and the accesses to the repository on the way to it. -/
def resolveGeminiCliContext (rawInput : ResolveGeminiCliInput) :
    Except GeminiCliProfileFailure (GeminiCliResolution × List GeminiRead) := do
  let context ← contextOf host rawInput
  let state ← context.input.events.foldlM (applyEvent context) (initialState context)
  return (resolution context state, state.reads)

end GeminiCliProfile

end AgentContextLint
