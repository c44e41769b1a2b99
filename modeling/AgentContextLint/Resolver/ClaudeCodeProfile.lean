import AgentContextLint.Core.DiagnosticFingerprint
import AgentContextLint.Resolver.DocumentImportDag
import AgentContextLint.Resolver.ProfileGlobDialects

/-!
# The Claude Code profile

Model of `packages/resolver/src/claude-code-profile.ts`: from a closed snapshot of candidate files
and of the runtime, which instruction files a session has loaded, and which of them the
documentation orders before which.

The parser of instruction files and the reader of event traces are parameters (`ClaudeReaders`).
Candidates are told apart by path, kind and origin; `orderAfter` names its predecessors by path.
-/

namespace AgentContextLint

open Utf16 Utf8 Metered Sorting

/-! ## Snapshots -/

inductive ClaudeCandidateKind
  | memoryAlternate
  | memoryLocal
  | memoryShared
  | projectRule
  deriving DecidableEq

def ClaudeCandidateKind.text : ClaudeCandidateKind → Text
  | .memoryAlternate => js "memory-alternate"
  | .memoryLocal => js "memory-local"
  | .memoryShared => js "memory-shared"
  | .projectRule => js "project-rule"

inductive ClaudeCandidateOrigin
  | additionalDirectory
  | repository
  deriving DecidableEq

/-- `"external"`, `"internal"`, `"none"` and `"unknown"`. -/
inductive ClaudeSymlinkState
  | outward
  | inward
  | absent
  | unknown
  deriving DecidableEq

structure ClaudeInstructionCandidateSnapshot where
  absolutePath : Option Text
  bytes : List UInt8
  importGraph : Option ImportGraphResult
  kind : ClaudeCandidateKind
  origin : ClaudeCandidateOrigin
  path : RelativePath
  scopeRoot : RelativePath
  symlinkState : ClaudeSymlinkState

inductive ClaudeRuntimeEvent
  | compact (id : Text)
  | launch (id : Text) (path : RelativePath)
  | read (id : Text) (path : RelativePath)

def ClaudeRuntimeEvent.id : ClaudeRuntimeEvent → Text
  | .compact id => id
  | .launch id _ => id
  | .read id _ => id

inductive ClaudeSettingSource
  | localSettings
  | managed
  | project
  | user
  deriving DecidableEq

def ClaudeSettingSource.text : ClaudeSettingSource → Text
  | .localSettings => js "local"
  | .managed => js "managed"
  | .project => js "project"
  | .user => js "user"

structure ClaudeSettingSourcesSnapshot where
  known : Bool
  values : List ClaudeSettingSource

/-- `"complete"`, `"partial"` and `"unknown"`. -/
inductive ClaudeExclusionCompleteness
  | complete
  | incomplete
  | unknown
  deriving DecidableEq

inductive ClaudePlatformCase
  | insensitive
  | sensitive
  | unknown
  deriving DecidableEq

structure ClaudeExclusionSnapshot where
  completeness : ClaudeExclusionCompleteness
  patterns : List Text
  platformCase : ClaudePlatformCase

inductive ClaudeAdditionalDirectories
  | disabled
  | enabled
  | unknown
  deriving DecidableEq

inductive ClaudeExternalContext
  | supplied
  | unavailable
  | unknown
  deriving DecidableEq

def ClaudeExternalContext.text : ClaudeExternalContext → Text
  | .supplied => js "supplied"
  | .unavailable => js "unavailable"
  | .unknown => js "unknown"

inductive ClaudeMode
  | bare
  | normal
  | safe
  | unknown

structure ClaudeRuntimeSnapshot where
  additionalDirectoryInstructions : ClaudeAdditionalDirectories
  clientVersion : Option Text
  eventTrace : List ClaudeRuntimeEvent
  exclusions : ClaudeExclusionSnapshot
  externalContext : ClaudeExternalContext
  mode : ClaudeMode
  settingSources : ClaudeSettingSourcesSnapshot

structure ResolveClaudeCodeProfileInput where
  candidates : List ClaudeInstructionCandidateSnapshot
  launchCwd : RelativePath
  repositoryRoot : RelativePath
  runtime : ClaudeRuntimeSnapshot

/-! ## Decisions -/

inductive ClaudeLoadState
  | approvalRequired
  | excluded
  | launch
  | onDemandActive
  | onDemandInactive
  | unknown

inductive ClaudeProfileDecisionCode
  | additionalDirectoryDisabled
  | bareMode
  | documentedLaunch
  | documentedOnDemand
  | documentedOnDemandInactive
  | excludedBySetting
  | externalSymlinkUnknown
  | invalidSyntax
  | legacyClientRisk
  | localSourceDisabled
  | projectRulesSourceDisabled
  | safeMode
  | unknownExclusion
  | unknownRuntime
  | unknownSymlink
  | unknownVersion

def ClaudeProfileDecisionCode.text : ClaudeProfileDecisionCode → Text
  | .additionalDirectoryDisabled => js "additional-directory-disabled"
  | .bareMode => js "bare-mode"
  | .documentedLaunch => js "documented-launch"
  | .documentedOnDemand => js "documented-on-demand"
  | .documentedOnDemandInactive => js "documented-on-demand-inactive"
  | .excludedBySetting => js "excluded-by-setting"
  | .externalSymlinkUnknown => js "external-symlink-unknown"
  | .invalidSyntax => js "invalid-syntax"
  | .legacyClientRisk => js "legacy-client-risk"
  | .localSourceDisabled => js "local-source-disabled"
  | .projectRulesSourceDisabled => js "project-rules-source-disabled"
  | .safeMode => js "safe-mode"
  | .unknownExclusion => js "unknown-exclusion"
  | .unknownRuntime => js "unknown-runtime"
  | .unknownSymlink => js "unknown-symlink"
  | .unknownVersion => js "unknown-version"

/-- `REASONS` -/
def ClaudeProfileDecisionCode.reason : ClaudeProfileDecisionCode → String
  | .additionalDirectoryDisabled => "Additional-directory instruction discovery is disabled."
  | .bareMode => "Bare mode disables automatic project instruction discovery."
  | .documentedLaunch => "The documented launch chain includes this instruction."
  | .documentedOnDemand => "A documented read event activates this instruction."
  | .documentedOnDemandInactive => "No supplied read event activates this instruction."
  | .excludedBySetting => "A supplied absolute claudeMdExcludes pattern excludes this source."
  | .externalSymlinkUnknown =>
    "The candidate symlink leaves the authorized repository boundary."
  | .invalidSyntax =>
    "Malformed or unsupported syntax cannot establish instruction authority."
  | .legacyClientRisk =>
    "The configured legacy client predates the safe documented behavior."
  | .localSourceDisabled => "The active setting-source list excludes local instructions."
  | .projectRulesSourceDisabled => "The active modern client excludes project rules."
  | .safeMode => "Safe mode disables managed, user, and project CLAUDE.md customizations."
  | .unknownExclusion =>
    "The supplied settings cannot prove whether this absolute path is excluded."
  | .unknownRuntime => "Required invocation or event state was not supplied."
  | .unknownSymlink => "Symlink target, containment, or cycle behavior is not established."
  | .unknownVersion =>
    "The client version is required to select this documented behavior branch."

inductive ClaudeImportState
  | approvalRequired
  | cycleUnknown
  | depthUnsupported
  | loaded
  | unavailable
  | unknown
  deriving DecidableEq

def ClaudeImportState.text : ClaudeImportState → Text
  | .approvalRequired => js "approval-required"
  | .cycleUnknown => js "cycle-unknown"
  | .depthUnsupported => js "depth-unsupported"
  | .loaded => js "loaded"
  | .unavailable => js "unavailable"
  | .unknown => js "unknown"

structure ClaudeImportDecision where
  depth : Nat
  fromDocumentId : Option Text
  importId : Option Text
  rawSpecifier : Option Text
  state : ClaudeImportState
  targetPath : Option RelativePath

inductive ClaudeInstructionFormat
  | memory
  | projectRule
  deriving DecidableEq

/-- `"absent"`, `"invalid"` and `"valid"` with its value. -/
inductive ClaudePathsField
  | absent
  | invalid
  | valid (value : List Text)

/-- `"complete"`, `"malformed"` and `"partial"`. -/
inductive ClaudeSyntaxState
  | complete
  | malformed
  | incomplete
  deriving DecidableEq

/-- The fields of a parsed instruction file that the resolver and its readers use. -/
structure ClaudeInstructionSyntaxResult where
  documentId : Text
  format : ClaudeInstructionFormat
  imports : List ImportReference
  paths : ClaudePathsField
  state : ClaudeSyntaxState
  text : Option Text
  transformedBody : Option Text

structure ClaudeInstructionSyntaxInput where
  bytes : List UInt8
  documentId : Text
  format : ClaudeInstructionFormat
  sourceId : Text

/-- The trace that is made up for an import graph. -/
structure SyntheticTargetTrace where
  launchCwd : RelativePath
  purpose : String
  targetPath : RelativePath
  workspaceRoots : List RelativePath

/-- `parseClaudeInstructionSyntax` and the trace side of `buildDocumentImportDag`; both may throw. -/
structure ClaudeReaders where
  parse : ClaudeInstructionSyntaxInput → Except String ClaudeInstructionSyntaxResult
  readTrace : SyntheticTargetTrace → Except String DocumentImportDag.NormalizedTrace

structure ClaudeCandidateDecision where
  activatedBy : List Text
  activation : ActivationState
  code : ClaudeProfileDecisionCode
  imports : List ClaudeImportDecision
  kind : ClaudeCandidateKind
  loadState : ClaudeLoadState
  orderAfter : List RelativePath
  origin : ClaudeCandidateOrigin
  path : RelativePath
  reason : String
  scopeRoot : RelativePath
  syntaxResult : ClaudeInstructionSyntaxResult
  versionBranch : String

structure ClaudeCodeProfileResolution where
  analysisIsPartial : Bool
  candidates : List ClaudeCandidateDecision
  externalContext : ClaudeExternalContext
  launchCwd : RelativePath
  repositoryRoot : RelativePath
  runtime : ClaudeRuntimeSnapshot
  unresolvedOrdering : List Text

inductive ClaudeCodeProfileErrorCode
  | invalidInput
  | resourceLimit

/-- What `resolveClaudeCodeProfile` throws: its own errors, and those of the matcher and the
parser. -/
inductive ClaudeCodeProfileFailure
  | profile (code : ClaudeCodeProfileErrorCode) (message : String)
  | glob (error : ProfileGlobDialectError)
  | parser (message : String)

namespace ClaudeCodeProfile

/-! ## The profile -/

def profileId : Text := js "claude-code"

def surfaceId : Text := js "claude-code/local-session"

def ruleGlobDialectId : Text := js "claude-code/project-rule-paths/2026-08-01"

def importDepth : Nat := 4

/-! ## Limits -/

def maximumCandidates : Nat := 4096

def maximumCandidateBytes : Nat := 262144

def maximumEvents : Nat := 4096

def maximumExclusions : Nat := 4096

def maximumPathBytes : Nat := 16384

def maximumTotalBytes : Nat := 16777216

def maximumTotalPathBytes : Nat := 16777216

/-! ## Fields -/

def failIf (condition : Prop) [Decidable condition] (code : ClaudeCodeProfileErrorCode)
    (message : String) : Except ClaudeCodeProfileFailure Unit :=
  refuseIf condition (.profile code message)

def dense {α : Type} (value : List α) (maximum : Nat) (label : String) :
    Except ClaudeCodeProfileFailure Unit :=
  failIf (value.length > maximum) .resourceLimit (label ++ " exceeds its item limit")

def pathValue (value : Text) (label : String) : Except ClaudeCodeProfileFailure Unit := do
  failIf (¬ RepositoryPath.isRepositoryRelativePath value) .invalidInput
    (label ++ " must be a repository path")
  failIf (byteLength value > maximumPathBytes) .resourceLimit (label ++ " exceeds its byte limit")

def isNormalizedAbsolutePath (value : Text) : Bool :=
  value.head? == some 0x2f && !value.contains 0 &&
    !((value.splitOn 0x2f).any fun part => part == js "." || part == js "..")

def absolutePath (value : Option Text) (label : String) : Except ClaudeCodeProfileFailure Unit :=
  match value with
  | none => .ok ()
  | some value => do
    failIf (¬ isNormalizedAbsolutePath value) .invalidInput
      (label ++ " must be a normalized absolute path")
    failIf (byteLength value > maximumPathBytes) .resourceLimit
      (label ++ " exceeds its byte limit")

/-- `text` -/
def identifierText (value : Text) (label : String) : Except ClaudeCodeProfileFailure Unit :=
  failIf (value = [] ∨ value.length > 512 ∨ ¬ isStableIdentifier value) .invalidInput
    (label ++ " must be a stable identifier")

def contains (root path : Text) : Bool :=
  root == RepositoryPath.repositoryRoot || path == root || (root ++ [0x2f]).isPrefixOf path

def directory (path : RelativePath) : RelativePath :=
  match path.reverse.dropWhile (· ≠ 0x2f) with
  | [] => RepositoryPath.repositoryRoot
  | _ :: front => front.reverse

/-- The name behind the last slash. -/
def basename (path : RelativePath) : Text :=
  (path.reverse.takeWhile (· ≠ 0x2f)).reverse

def join (root : RelativePath) (suffix : Text) : RelativePath :=
  if root = RepositoryPath.repositoryRoot then suffix else root ++ [0x2f] ++ suffix

/-! ## Candidates -/

def locationMatches (candidate : ClaudeInstructionCandidateSnapshot) : Bool :=
  contains candidate.scopeRoot candidate.path &&
    match candidate.kind with
    | .memoryShared => basename candidate.path == js "CLAUDE.md"
    | .memoryLocal => basename candidate.path == js "CLAUDE.local.md"
    | .memoryAlternate => candidate.path == join candidate.scopeRoot (js ".claude/CLAUDE.md")
    | .projectRule =>
      let rulesRoot := join candidate.scopeRoot (js ".claude/rules")
      contains rulesRoot candidate.path && candidate.path != rulesRoot &&
        (js ".md").isSuffixOf (basename candidate.path)

def candidateSnapshot (candidate : ClaudeInstructionCandidateSnapshot) :
    Except ClaudeCodeProfileFailure Unit := do
  absolutePath candidate.absolutePath "candidate absolutePath"
  failIf (candidate.bytes.length > maximumCandidateBytes) .resourceLimit
    "candidate exceeds its byte limit"
  pathValue candidate.path "candidate path"
  pathValue candidate.scopeRoot "candidate scopeRoot"
  failIf (¬ locationMatches candidate) .invalidInput "candidate location does not match its kind"

/-! ## The runtime -/

def settingSources (value : ClaudeSettingSourcesSnapshot) :
    Except ClaudeCodeProfileFailure ClaudeSettingSourcesSnapshot := do
  dense value.values 4 "Claude setting sources values"
  failIf (¬ value.values.Nodup) .invalidInput "setting sources must be unique"
  return { value with values := sortBy (comparingWith compareUnits ClaudeSettingSource.text) value.values }

def exclusions (value : ClaudeExclusionSnapshot) :
    Except ClaudeCodeProfileFailure ClaudeExclusionSnapshot := do
  dense value.patterns maximumExclusions "Claude exclusion patterns"
  failIf (∃ entry ∈ value.patterns, entry = [] ∨ 0 ∈ entry ∨ byteLength entry > maximumPathBytes)
    .invalidInput "exclusion pattern is invalid"
  failIf (¬ value.patterns.Nodup) .invalidInput "exclusion patterns must be unique"
  return { value with patterns := sortBy compareUnits value.patterns }

def event (launchCwd : RelativePath) (entry : ClaudeRuntimeEvent) (index : Nat) :
    Except ClaudeCodeProfileFailure Unit := do
  identifierText entry.id "event id"
  match entry with
  | .compact _ => return
  | .launch _ path => do
    pathValue path "event path"
    failIf (index ≠ 0 ∨ path ≠ launchCwd) .invalidInput
      "event trace must start with the matching launch event"
  | .read _ path => do
    pathValue path "event path"
    failIf (index = 0) .invalidInput "event trace must start with the matching launch event"

def events (value : List ClaudeRuntimeEvent) (launchCwd : RelativePath) :
    Except ClaudeCodeProfileFailure Unit := do
  dense value maximumEvents "Claude event trace"
  failIf (value = []) .invalidInput "event trace is empty"
  value.zipIdx.forM fun (entry, index) => event launchCwd entry index
  failIf (¬ (value.map (·.id)).Nodup) .invalidInput "event ids must be unique"

/-- `0|[1-9]\d*` -/
def versionNumber (digits : Text) : Option Nat :=
  if digits ≠ [] ∧ digits.all (fun unit => 0x30 ≤ unit.toNat && unit.toNat ≤ 0x39) ∧
      (digits.head? = some 0x30 → digits = [0x30]) then
    some (digits.foldl (fun total unit => total * 10 + (unit.toNat - 0x30)) 0)
  else none

/-- The numbers of a text that `SEMVER` accepts. -/
def versionNumbers (version : Text) : Option (Nat × Nat × Nat) :=
  match version.splitOn 0x2e with
  | [major, minor, patch] => do
    return (← versionNumber major, ← versionNumber minor, ← versionNumber patch)
  | _ => none

def runtime (value : ClaudeRuntimeSnapshot) (launchCwd : RelativePath) :
    Except ClaudeCodeProfileFailure ClaudeRuntimeSnapshot := do
  failIf (∃ version ∈ value.clientVersion, versionNumbers version = none) .invalidInput
    "client version is invalid"
  events value.eventTrace launchCwd
  let exclusions ← exclusions value.exclusions
  let settingSources ← settingSources value.settingSources
  return { value with exclusions, settingSources }

/-! ## The snapshot -/

def candidatePathBytes (candidate : ClaudeInstructionCandidateSnapshot) : Nat :=
  byteLength candidate.path + byteLength candidate.scopeRoot +
    (candidate.absolutePath.map byteLength).getD 0

def compareCandidates (left right : ClaudeInstructionCandidateSnapshot) : Ordering :=
  (compareUnits left.path right.path).then (compareUnits left.kind.text right.kind.text)

/-- `${path}\0${kind}\0${origin}`; no repository path has a NUL. -/
def identity (candidate : ClaudeInstructionCandidateSnapshot) :
    RelativePath × ClaudeCandidateKind × ClaudeCandidateOrigin :=
  (candidate.path, candidate.kind, candidate.origin)

def snapshot (input : ResolveClaudeCodeProfileInput) :
    Except ClaudeCodeProfileFailure ResolveClaudeCodeProfileInput := do
  pathValue input.launchCwd "launchCwd"
  pathValue input.repositoryRoot "repositoryRoot"
  failIf (¬ contains input.repositoryRoot input.launchCwd) .invalidInput
    "launchCwd must be within repositoryRoot"
  dense input.candidates maximumCandidates "Claude candidates"
  input.candidates.forM candidateSnapshot
  failIf (∃ entry ∈ input.candidates, entry.origin = .repository ∧
      entry.scopeRoot ≠ input.repositoryRoot) .invalidInput
    "repository candidate scopeRoot is invalid"
  failIf (¬ (input.candidates.map identity).Nodup) .invalidInput "candidates must be unique"
  failIf ((input.candidates.map (·.bytes.length)).sum > maximumTotalBytes) .resourceLimit
    "candidate bytes exceed aggregate limit"
  failIf (byteLength input.launchCwd + byteLength input.repositoryRoot +
      (input.candidates.map candidatePathBytes).sum > maximumTotalPathBytes) .resourceLimit
    "paths exceed aggregate limit"
  let runtime ← runtime input.runtime input.launchCwd
  return { input with candidates := sortBy compareCandidates input.candidates, runtime }

/-! ## Versions -/

/-- `versionCompare`, on texts that `SEMVER` accepts. The numbers of the right side are small, so
that rounding to doubles on the left changes no comparison. -/
def versionBefore (left : Text) (right : Nat × Nat × Nat) : Bool :=
  match versionNumbers left with
  | none => false
  | some (major, minor, patch) =>
    major < right.1 || (major == right.1 && (minor < right.2.1 ||
      (minor == right.2.1 && patch < right.2.2)))

def versionBranch : Option Text → String
  | none => "unversioned"
  | some version =>
    if versionBefore version (2, 1, 198) then "before-2.1.198"
    else if versionBefore version (2, 1, 207) then "2.1.198-to-2.1.206"
    else if versionBefore version (2, 1, 211) then "2.1.207-to-2.1.210"
    else if versionBefore version (2, 1, 217) then "2.1.211-to-2.1.216"
    else "2.1.217-or-newer"

/-! ## Exclusions -/

inductive ExclusionDecision
  | excluded
  | notExcluded
  | unknown
  deriving DecidableEq

/-- What one pattern says of an absolute path; `unknown` for a pattern that is not supported. -/
def exclusionOf (absolute pattern : Text) : ExclusionDecision :=
  if pattern.head? ≠ some 0x2f then .unknown
  else if 0x2a ∉ pattern then (if pattern = absolute then .excluded else .notExcluded)
  else if (js "/**").isSuffixOf pattern && !(pattern.take (pattern.length - 3)).contains 0x2a then
    let root := pattern.take (pattern.length - 3)
    if absolute = root ∨ (root ++ [0x2f]).isPrefixOf absolute then .excluded else .notExcluded
  else .unknown

def excluded (candidate : ClaudeInstructionCandidateSnapshot) (value : ClaudeExclusionSnapshot) :
    ExclusionDecision :=
  if value.patterns = [] then
    if value.completeness = .complete then .notExcluded else .unknown
  else match candidate.absolutePath with
    | none => .unknown
    | some absolute =>
      if value.platformCase ≠ .sensitive then .unknown
      else
        let decisions := value.patterns.map (exclusionOf absolute)
        if .excluded ∈ decisions then .excluded
        else if value.completeness = .complete ∧ .unknown ∉ decisions then .notExcluded
        else .unknown

/-! ## Syntax and imports -/

variable (readers : ClaudeReaders)

def syntaxFor (candidate : ClaudeInstructionCandidateSnapshot) :
    Except ClaudeCodeProfileFailure ClaudeInstructionSyntaxResult :=
  let digest := Sha256.sha256Hex (encode candidate.path ++ [0] ++ candidate.bytes)
  (readers.parse {
    bytes := candidate.bytes
    documentId := js "document:claude:" ++ digest
    format := if candidate.kind = .projectRule then .projectRule else .memory
    sourceId := js "source:claude:" ++ digest }).mapError .parser

def importState (occurrence : ImportDagOccurrence) : ClaudeImportState :=
  if occurrence.depth > importDepth then .depthUnsupported
  else if occurrence.issueCode = some .rootBoundary then .approvalRequired
  else match occurrence.state with
    | .edge .cycle => .cycleUnknown
    | .edge .loaded | .edge .alreadyLoaded => .loaded
    | .edge .unavailable | .edge .rejected => .unavailable
    | _ => .unknown

def uncheckedImport (syntaxResult : ClaudeInstructionSyntaxResult) (entry : ImportReference) :
    ClaudeImportDecision where
  depth := 1
  fromDocumentId := some syntaxResult.documentId
  importId := some entry.id
  rawSpecifier := some entry.rawSpecifier
  state := .unknown
  targetPath := none

/-- `rawById.get`: of the imports of the file and then of the graph, the last one counts. -/
def rawById (references : List ImportReference) (id : Text) : Option Text :=
  (references.reverse.find? (·.id = id)).map (·.rawSpecifier)

variable (candidate : ClaudeInstructionCandidateSnapshot)
  (syntaxResult : ClaudeInstructionSyntaxResult)

def importsFor (launchCwd : RelativePath) :
    Except ClaudeCodeProfileFailure (List ClaudeImportDecision) :=
  match candidate.importGraph with
  | none => .ok (syntaxResult.imports.map (uncheckedImport syntaxResult))
  | some graph => do
    let trace := {
      launchCwd
      purpose := "claude-import-resolution"
      targetPath := candidate.path
      workspaceRoots := [candidate.scopeRoot] }
    let dag ← (DocumentImportDag.buildDocumentImportDag readers.readTrace graph trace).mapError
      fun _ => .profile .invalidInput "candidate import graph is invalid"
    failIf (dag.entryPath ≠ candidate.path) .invalidInput
      "candidate import graph entry mismatches path"
    let references := syntaxResult.imports ++ graph.edges.map (·.reference)
    return (dag.occurrences.filter (·.state ≠ .entry)).map fun entry => {
      depth := entry.depth
      fromDocumentId := entry.fromDocumentId
      importId := entry.importId
      rawSpecifier := entry.importId.bind (rawById references)
      state := importState entry
      targetPath := entry.targetPath }

/-! ## Activation -/

structure ActivationDecision where
  activation : ActivationState
  code : ClaudeProfileDecisionCode
  loadState : ClaudeLoadState
  activatedBy : List Text

def fixed (activation : ActivationState) (code : ClaudeProfileDecisionCode)
    (loadState : ClaudeLoadState) : ActivationDecision := ⟨activation, code, loadState, []⟩

def isCompact : ClaudeRuntimeEvent → Bool
  | .compact _ => true
  | _ => false

def readEvent : ClaudeRuntimeEvent → Option (Text × RelativePath)
  | .read id path => some (id, path)
  | _ => none

def readEventsAfterLastCompact (runtime : ClaudeRuntimeSnapshot) : List (Text × RelativePath) :=
  (runtime.eventTrace.reverse.takeWhile (!isCompact ·)).reverse.filterMap readEvent

def hadCompact (runtime : ClaudeRuntimeSnapshot) : Bool := runtime.eventTrace.any isCompact

def documentedLaunch (runtime : ClaudeRuntimeSnapshot) : ActivationDecision :=
  ⟨.active, .documentedLaunch, .launch, [(runtime.eventTrace.head?.map (·.id)).getD []]⟩

def documentedOnDemand (activatedBy : List Text) : ActivationDecision :=
  ⟨.active, .documentedOnDemand, .onDemandActive, activatedBy⟩

/-- `toString(36)` -/
def base36 (n : Nat) : Text :=
  if n = 0 then js "0"
  else (Nat.digits 36 n).reverse.flatMap fun digit =>
    js (String.singleton (if digit < 10 then Char.ofNat (0x30 + digit) else Char.ofNat (0x57 + digit)))

def globRequest (target : RelativePath) (pattern : Text) (index : Nat) : GlobActivationRequest where
  ruleId := js "activation:claude:" ++ base36 index
  profileId := profileId
  surfaceId := surfaceId
  scopeRoot := candidate.scopeRoot
  targetPath := target
  pattern := pattern
  dialectId := some ruleGlobDialectId

/-- What the patterns of a rule say about one read. -/
def patternStates (patterns : List Text) (target : RelativePath) :
    Except ClaudeCodeProfileFailure (List ActivationState) :=
  patterns.zipIdx.mapM fun (pattern, index) =>
    ((ProfileGlobDialects.matchProfileGlob (globRequest candidate target pattern index)).map
      (·.state)).mapError .glob

/-- Where a client of unknown or older version would read a pattern in its own way. -/
def versionRisk (runtime : ClaudeRuntimeSnapshot) (version : Nat × Nat × Nat) :
    Option ActivationDecision :=
  match runtime.clientVersion with
  | none => some (fixed .indeterminate .unknownVersion .unknown)
  | some client =>
    if versionBefore client version then some (fixed .indeterminate .legacyClientRisk .unknown)
    else none

def ruleActivation (runtime : ClaudeRuntimeSnapshot) :
    Except ClaudeCodeProfileFailure ActivationDecision :=
  match syntaxResult.paths with
  | .absent =>
    if hadCompact runtime then .ok (fixed .indeterminate .unknownRuntime .unknown)
    else .ok (documentedLaunch runtime)
  | .invalid => .ok (fixed .indeterminate .invalidSyntax .unknown)
  | .valid patterns =>
    match (if patterns.any (·.contains 0x7b) then versionRisk runtime (2, 1, 217) else none).or
      (if patterns.any ProfileGlobDialects.malformedBracketExpression then
        versionRisk runtime (2, 1, 207) else none) with
    | some risk => .ok risk
    | none => do
      let states ← (readEventsAfterLastCompact runtime).mapM fun (id, target) => do
        return (id, ← patternStates candidate patterns target)
      let activeEvents := (states.filter (.active ∈ ·.2)).map (·.1)
      if activeEvents ≠ [] then return documentedOnDemand activeEvents
      if states.any (.indeterminate ∈ ·.2) then
        return fixed .indeterminate .unknownRuntime .unknown
      return fixed .inactive .documentedOnDemandInactive .onDemandInactive

def memoryActivation (runtime : ClaudeRuntimeSnapshot)
    (launchCwd repositoryRoot : RelativePath) : ActivationDecision :=
  let candidateDirectory := directory candidate.path
  let matchingReads := (readEventsAfterLastCompact runtime).filter fun (_, path) =>
    contains candidateDirectory path
  let ids := matchingReads.map (·.1)
  if hadCompact runtime then
    if candidate.origin = .repository ∧ candidate.kind = .memoryShared ∧
        candidateDirectory = repositoryRoot then documentedLaunch runtime
    else if ¬ contains candidateDirectory launchCwd ∧ matchingReads ≠ [] then
      documentedOnDemand ids
    else fixed .indeterminate .unknownRuntime .unknown
  else if candidate.kind = .memoryAlternate then documentedLaunch runtime
  else if contains candidateDirectory launchCwd then documentedLaunch runtime
  else if matchingReads ≠ [] then documentedOnDemand ids
  else fixed .inactive .documentedOnDemandInactive .onDemandInactive

/-- The decisions that the runtime takes without a look at the file. -/
def runtimeActivation (runtime : ClaudeRuntimeSnapshot) : Option ActivationDecision :=
  match runtime.mode with
  | .bare => some (fixed .inactive .bareMode .excluded)
  | .safe => some (fixed .inactive .safeMode .excluded)
  | .unknown => some (fixed .indeterminate .unknownRuntime .unknown)
  | .normal =>
  if candidate.origin = .additionalDirectory ∧ runtime.additionalDirectoryInstructions = .disabled
  then some (fixed .inactive .additionalDirectoryDisabled .excluded)
  else if candidate.origin = .additionalDirectory ∧
      runtime.additionalDirectoryInstructions = .unknown then
    some (fixed .indeterminate .unknownRuntime .unknown)
  else if ¬ runtime.settingSources.known then some (fixed .indeterminate .unknownRuntime .unknown)
  else if candidate.kind = .memoryLocal ∧ .localSettings ∉ runtime.settingSources.values then
    some (fixed .inactive .localSourceDisabled .excluded)
  else if candidate.kind = .projectRule ∧ .project ∉ runtime.settingSources.values then
    some ((versionRisk runtime (2, 1, 211)).getD
      (fixed .inactive .projectRulesSourceDisabled .excluded))
  else match excluded candidate runtime.exclusions with
    | .excluded => some (fixed .inactive .excludedBySetting .excluded)
    | .unknown => some (fixed .indeterminate .unknownExclusion .unknown)
    | .notExcluded =>
      if candidate.symlinkState = .outward then
        some (fixed .indeterminate .externalSymlinkUnknown .unknown)
      else if candidate.symlinkState ≠ .absent then
        some (fixed .indeterminate .unknownSymlink .unknown)
      else none

def activation (input : ResolveClaudeCodeProfileInput) :
    Except ClaudeCodeProfileFailure ActivationDecision :=
  match runtimeActivation candidate input.runtime with
  | some decision => .ok decision
  | none =>
    if syntaxResult.state = .malformed ∨ candidate.bytes = [] then
      .ok (fixed .indeterminate .invalidSyntax .unknown)
    else if candidate.kind = .projectRule then ruleActivation candidate syntaxResult input.runtime
    else .ok (memoryActivation candidate input.runtime input.launchCwd input.repositoryRoot)

/-! ## Order -/

/-- Whether the documentation loads `other` before `candidate`. -/
def isBefore (candidate other : ClaudeInstructionCandidateSnapshot) : Bool :=
  if other.path = candidate.path ∨ other.origin ≠ candidate.origin then false
  else if candidate.kind = .projectRule ∨ other.kind = .projectRule then false
  else if directory other.path ≠ directory candidate.path then
    contains (directory other.path) (directory candidate.path)
  else candidate.kind = .memoryLocal && other.kind = .memoryShared

def orderAfter (candidates : List ClaudeInstructionCandidateSnapshot) : List RelativePath :=
  sortBy compareUnits ((candidates.filter (isBefore candidate)).map (·.path))

def unresolvedOrdering (decisions : List ClaudeCandidateDecision) : List Text :=
  let active := decisions.filter (·.activation = .active)
  if active.any (·.kind = .memoryAlternate) &&
      active.any (fun entry => entry.kind = .memoryShared || entry.kind = .projectRule) then
    [js "CLAUDE.md, .claude/CLAUDE.md, and unconditional project-rule sibling order"]
  else []

/-! ## The resolver -/

def candidateDecision (input : ResolveClaudeCodeProfileInput)
    (candidate : ClaudeInstructionCandidateSnapshot) :
    Except ClaudeCodeProfileFailure ClaudeCandidateDecision := do
  let syntaxResult ← syntaxFor readers candidate
  let selected ← activation candidate syntaxResult input
  let imports ← importsFor readers candidate syntaxResult input.launchCwd
  return {
    activatedBy := selected.activatedBy
    activation := selected.activation
    code := selected.code
    imports
    kind := candidate.kind
    loadState := selected.loadState
    orderAfter := orderAfter candidate input.candidates
    origin := candidate.origin
    path := candidate.path
    reason := selected.code.reason
    scopeRoot := candidate.scopeRoot
    syntaxResult
    versionBranch := versionBranch input.runtime.clientVersion }

/-- A decision that leaves the analysis partial. -/
def leavesOpen (entry : ClaudeCandidateDecision) : Bool :=
  entry.activation = .indeterminate || entry.syntaxResult.state ≠ .complete ||
    entry.imports.any (·.state ≠ .loaded)

def resolveClaudeCodeProfile (rawInput : ResolveClaudeCodeProfileInput) :
    Except ClaudeCodeProfileFailure ClaudeCodeProfileResolution := do
  let input ← snapshot rawInput
  let candidates ← input.candidates.mapM (candidateDecision readers input)
  let unresolvedOrdering := unresolvedOrdering candidates
  return {
    analysisIsPartial := input.runtime.externalContext ≠ .supplied || unresolvedOrdering ≠ [] ||
      candidates.any leavesOpen
    candidates
    externalContext := input.runtime.externalContext
    launchCwd := input.launchCwd
    repositoryRoot := input.repositoryRoot
    runtime := input.runtime
    unresolvedOrdering }

end ClaudeCodeProfile

end AgentContextLint
