import AgentContextLint.Core.RepositoryPath
import AgentContextLint.Lib.Bisect
import AgentContextLint.Lib.JsValue
import AgentContextLint.Lib.Netstring
import AgentContextLint.Lib.OrderedMap
import AgentContextLint.Lib.Sha256
import AgentContextLint.Lib.Sorting
import AgentContextLint.Lib.UnitPattern
import Mathlib.Data.List.DropRight

/-!
# Target sampling

Model of `packages/resolver/src/target-sampler.ts`: the checks of an input, the classification of
source paths, the coverage criteria and the targets selected for them.

A property of a record whose value is `JsExotic.accessor` is one without a value of its own, and an
irregular array is taken to be within the limit of its place. The clock is what its readings lead
to, one reading for each place where the deadline is checked. `toLowerCase` is a parameter.
-/

namespace AgentContextLint

open Utf16 Sorting Metered
open RepositoryPath (isRepositoryRelativePath repositoryRoot)
open JsValue (get keys)

/-! ## Contracts -/

inductive TargetSourceLanguage
  | c
  | cpp
  | csharp
  | css
  | dart
  | elixir
  | erlang
  | fsharp
  | go
  | graphql
  | groovy
  | haskell
  | html
  | java
  | javascript
  | kotlin
  | lua
  | make
  | objectiveC
  | perl
  | php
  | powershell
  | protobuf
  | python
  | r
  | ruby
  | rust
  | scala
  | shell
  | solidity
  | sql
  | svelte
  | swift
  | terraform
  | typescript
  | vue
  | zig
  deriving DecidableEq

def TargetSourceLanguage.text : TargetSourceLanguage → Text
  | c => js "c"
  | cpp => js "cpp"
  | csharp => js "csharp"
  | css => js "css"
  | dart => js "dart"
  | elixir => js "elixir"
  | erlang => js "erlang"
  | fsharp => js "fsharp"
  | go => js "go"
  | graphql => js "graphql"
  | groovy => js "groovy"
  | haskell => js "haskell"
  | html => js "html"
  | java => js "java"
  | javascript => js "javascript"
  | kotlin => js "kotlin"
  | lua => js "lua"
  | make => js "make"
  | objectiveC => js "objective-c"
  | perl => js "perl"
  | php => js "php"
  | powershell => js "powershell"
  | protobuf => js "protobuf"
  | python => js "python"
  | r => js "r"
  | ruby => js "ruby"
  | rust => js "rust"
  | scala => js "scala"
  | shell => js "shell"
  | solidity => js "solidity"
  | sql => js "sql"
  | svelte => js "svelte"
  | swift => js "swift"
  | terraform => js "terraform"
  | typescript => js "typescript"
  | vue => js "vue"
  | zig => js "zig"

/-- What a lookup in a table of languages gives: an entry, or what every object inherits under a
name. -/
inductive SourceLanguage
  | listed (language : TargetSourceLanguage)
  | inherited (name : Text)
  deriving DecidableEq

/-- A language in a template: inherited functions print their name. -/
def SourceLanguage.text : SourceLanguage → Text
  | listed language => language.text
  | inherited name =>
    if name = js "__proto__" then js "[object Object]"
    else if name = js "constructor" then js "function Object() \x7b [native code] \x7d"
    else js "function " ++ name ++ js "() \x7b [native code] \x7d"

/-- `ActivationState` of `activation-algebra.ts`. -/
inductive ActivationState
  | active
  | inactive
  | indeterminate
  deriving DecidableEq

namespace ActivationState

/-- `ACTIVATION_STATES` -/
def all : List ActivationState := [active, inactive, indeterminate]

def text : ActivationState → Text
  | active => js "active"
  | inactive => js "inactive"
  | indeterminate => js "indeterminate"

def ofText (s : Text) : Option ActivationState := all.find? fun state => state.text = s

end ActivationState

structure TargetActivationFact where
  ruleId : Text
  state : ActivationState
  deriving DecidableEq

structure TargetSamplerLimits where
  exhaustiveSourceFileLimit : Nat
  maximumActivationFacts : Nat
  maximumCriticalPaths : Nat
  maximumDurationMs : Nat
  maximumPaths : Nat
  maximumPathTextBytes : Nat
  maximumRulesPerPath : Nat
  maximumSamples : Nat
  maximumWorkspaceBoundaries : Nat

inductive TargetCoverageKind
  | criticalPath
  | exhaustiveSourceSet
  | languageDirectory
  | scopePartition
  | workspaceRoot
  deriving DecidableEq

def TargetCoverageKind.text : TargetCoverageKind → Text
  | criticalPath => js "critical-path"
  | exhaustiveSourceSet => js "exhaustive-source-set"
  | languageDirectory => js "language-directory"
  | scopePartition => js "scope-partition"
  | workspaceRoot => js "workspace-root"

inductive TargetCoverageStatus
  | covered
  | unavailable
  deriving DecidableEq

structure TargetCoverageCriterion where
  candidateCount : Nat
  id : Text
  kind : TargetCoverageKind
  selectedPath : Option RelativePath
  status : TargetCoverageStatus

structure SampledTarget where
  activationPartitionId : Option Text
  language : Option SourceLanguage
  path : RelativePath
  reasons : List Text

structure TargetSamplingProvenance where
  trackingCertainty : Text
  trackingReason : Text
  workspaceUncertainty : Text
  workspaceUncertaintyReasons : List Text

structure TargetSamplingMetrics where
  activationFactCount : Nat
  criticalPathCount : Nat
  languageDirectoryCount : Nat
  partitionCount : Nat
  sourcePathCount : Nat
  trackedPathCount : Nat
  workspaceRootCount : Nat

inductive TargetSamplingState
  | complete
  | incomplete

inductive TargetSamplingStrategy
  | exhaustive
  | stratified

structure TargetSamplingResult where
  coverage : List TargetCoverageCriterion
  limits : TargetSamplerLimits
  metrics : TargetSamplingMetrics
  provenance : TargetSamplingProvenance
  selected : List SampledTarget
  state : TargetSamplingState
  strategy : TargetSamplingStrategy

inductive TargetSamplerErrorCode
  | deadlineExceeded
  | invalidInput
  | invalidOptions
  | invalidRelationship
  | resourceLimit

structure TargetSamplerError where
  code : TargetSamplerErrorCode
  message : String

/-- A place where the clock is read. -/
inductive SamplerCheckpoint
  | start
  | path (index : Nat)
  | boundary (index : Nat)
  | observation (index : Nat)
  | finish

/-- What a reading leads to: `now` throws or gives no finite number, the deadline is not finite or
exceeded, or there is time left. -/
inductive ClockReading
  | failed
  | notFinite
  | late
  | inTime
  deriving DecidableEq

/-- `callable` says that `now` is a function. -/
structure TargetSamplerClock where
  callable : Bool
  reading : SamplerCheckpoint → ClockReading

namespace TargetSampler

abbrev Sampled (α : Type) := Except TargetSamplerError α

def failIf (condition : Prop) [Decidable condition] (code : TargetSamplerErrorCode)
    (message : String) : Sampled Unit := refuseIf condition { code, message }

def fail {α : Type} (code : TargetSamplerErrorCode) (message : String) : Sampled α :=
  .error { code, message }

/-! ## Tables -/

def maximumPathCodeUnits : Nat := 32768

def defaultLimits : TargetSamplerLimits where
  exhaustiveSourceFileLimit := 1000
  maximumActivationFacts := 1000000
  maximumCriticalPaths := 4096
  maximumDurationMs := 30000
  maximumPaths := 100000
  maximumPathTextBytes := 67108864
  maximumRulesPerPath := 4096
  maximumSamples := 100000
  maximumWorkspaceBoundaries := 10000

def hardLimits : TargetSamplerLimits where
  exhaustiveSourceFileLimit := 100000
  maximumActivationFacts := 10000000
  maximumCriticalPaths := 100000
  maximumDurationMs := 300000
  maximumPaths := 1000000
  maximumPathTextBytes := 536870912
  maximumRulesPerPath := 100000
  maximumSamples := 1000000
  maximumWorkspaceBoundaries := 100000

/-- `LANGUAGE_EXTENSIONS` -/
def languageExtensions : List (Text × TargetSourceLanguage) :=
  [(js ".c", .c), (js ".cc", .cpp), (js ".cjs", .javascript), (js ".cpp", .cpp), (js ".cs", .csharp),
    (js ".css", .css), (js ".cts", .typescript), (js ".cxx", .cpp), (js ".dart", .dart),
    (js ".eex", .elixir), (js ".ex", .elixir), (js ".exs", .elixir), (js ".erl", .erlang),
    (js ".fs", .fsharp), (js ".fsx", .fsharp), (js ".go", .go), (js ".graphql", .graphql),
    (js ".gql", .graphql), (js ".gradle", .groovy), (js ".groovy", .groovy), (js ".h", .c),
    (js ".hs", .haskell), (js ".hh", .cpp), (js ".hpp", .cpp), (js ".html", .html), (js ".hxx", .cpp),
    (js ".java", .java), (js ".js", .javascript), (js ".jsx", .javascript), (js ".kt", .kotlin),
    (js ".kts", .kotlin), (js ".less", .css), (js ".lua", .lua), (js ".m", .objectiveC),
    (js ".mm", .objectiveC), (js ".mjs", .javascript), (js ".mts", .typescript), (js ".pl", .perl),
    (js ".pm", .perl), (js ".php", .php), (js ".proto", .protobuf), (js ".ps1", .powershell),
    (js ".py", .python), (js ".pyi", .python), (js ".r", .r), (js ".rb", .ruby), (js ".rs", .rust),
    (js ".sass", .css), (js ".scala", .scala), (js ".scss", .css), (js ".sh", .shell),
    (js ".sol", .solidity), (js ".sql", .sql), (js ".svelte", .svelte), (js ".swift", .swift),
    (js ".tf", .terraform), (js ".ts", .typescript), (js ".tsx", .typescript), (js ".vue", .vue),
    (js ".zig", .zig)]

/-- `LANGUAGE_BASENAMES` -/
def languageBasenames : List (Text × TargetSourceLanguage) :=
  [(js "Dockerfile", .shell), (js "GNUmakefile", .make), (js "Makefile", .make)]

/-- The names of what a plain object inherits. -/
def inheritedNames : List Text :=
  [js "__defineGetter__", js "__defineSetter__", js "__lookupGetter__", js "__lookupSetter__",
    js "__proto__", js "constructor", js "hasOwnProperty", js "isPrototypeOf",
    js "propertyIsEnumerable", js "toLocaleString", js "toString", js "valueOf"]

def trackingReasons : List Text :=
  [js "git-directory-missing", js "git-index-malformed", js "git-index-missing",
    js "git-index-unsupported", js "git-metadata-unsafe", js "git-worktree-external-metadata",
    js "verified-git-index"]

def workspaceFamilies : List Text :=
  [js "bazel-build", js "bazel-module", js "bazel-workspace", js "cargo", js "go-module",
    js "go-workspace", js "javascript-package", js "lerna", js "nx", js "pnpm", js "python-project",
    js "python-setup-cfg", js "python-setup-py", js "rush", js "turbo"]

def workspaceLanguages : List Text :=
  [js "bazel", js "go", js "javascript", js "python", js "rust"]

/-- `ID_PATTERN`: runs of letters and digits with single separators between them. -/
def isId (value : Text) : Bool :=
  (value.splitOnP fun u => (js "._:/-").contains u).all fun run =>
    !run.isEmpty && run.all UnitPattern.isAlphanumeric

/-! ## Checks of values -/

def isAccessor : JsValue → Bool
  | .exotic .accessor => true
  | _ => false

/-- The fields of a record, by the function `record`. -/
def record (value : JsValue) (expected : List String) (label : String) :
    Sampled (List (Text × JsValue)) :=
  match value with
  | .object fields => do
    failIf (fields.length ≠ expected.length ∨ ¬ ∀ key ∈ keys fields, key ∈ expected.map js)
      .invalidInput (label ++ " has unexpected fields")
    match expected.find? fun key => isAccessor (get fields (js key)) with
    | some key => fail .invalidInput (label ++ "." ++ key ++ " must be an own data property")
    | none => return fields
  | .array _ | .exotic .irregularArray | .exotic .classInstance =>
    fail .invalidInput (label ++ " has unexpected fields")
  | _ => fail .invalidInput (label ++ " must be a non-proxy data record")

variable (value : JsValue)

def denseArray (maximum : Nat) (label : String) : Sampled (List JsValue) :=
  match value with
  | .array items => do
    failIf (maximum < items.length) .resourceLimit (label ++ " exceeds its item limit")
    failIf (items.any isAccessor = true) .invalidInput (label ++ " contains an unsafe entry")
    return items
  | .exotic .irregularArray => fail .invalidInput (label ++ " must be dense and unextended")
  | _ => fail .invalidInput (label ++ " must be a regular dense array")

/-- A text that passes a test. -/
def textWhere (accepts : Text → Bool) (value : JsValue) (code : TargetSamplerErrorCode)
    (message : String) : Sampled Text :=
  match value.text? with
  | some text => if accepts text then .ok text else fail code message
  | none => fail code message

def isRootPath (text : Text) : Bool :=
  decide (text.length ≤ maximumPathCodeUnits) && isRepositoryRelativePath text

def isFilePath (text : Text) : Bool := isRootPath text && text != repositoryRoot

def pathValue (label : String) : Sampled RelativePath :=
  textWhere isFilePath value .invalidInput (label ++ " must be a canonical repository file path")

def rootValue (label : String) : Sampled RelativePath :=
  textWhere isRootPath value .invalidInput (label ++ " must be a canonical repository path")

variable (label : String)

def boundedText (maximum : Nat) : Sampled Text :=
  textWhere (fun text => text != [] && decide (text.length ≤ maximum)) value .invalidInput
    (label ++ " must be bounded text")

/-- The members of an array, each under its index. -/
def mapEntries {α : Type} (f : Nat → JsValue → Sampled α) (items : List JsValue) : Sampled (List α) :=
  items.zipIdx.mapM fun item => f item.2 item.1

def indexed (index : Nat) : String := label ++ "[" ++ toString index ++ "]"

/-! ## Options and clock -/

def positiveInteger (maximum : Nat) : Sampled Nat :=
  match value.integer? with
  | some n =>
    if 1 ≤ n ∧ n ≤ maximum then .ok n.toNat
    else fail .invalidOptions (label ++ " must be a bounded positive integer")
  | none => fail .invalidOptions (label ++ " must be a bounded positive integer")

/-- `LIMIT_KEYS` -/
def limitKeys : List String :=
  ["exhaustiveSourceFileLimit", "maximumActivationFacts", "maximumCriticalPaths",
    "maximumDurationMs", "maximumPathTextBytes", "maximumPaths", "maximumRulesPerPath",
    "maximumSamples", "maximumWorkspaceBoundaries"]

/-- One round of the loop over `LIMIT_KEYS`. -/
def resolveLimit (fields : List (Text × JsValue)) (key : String)
    (limit : TargetSamplerLimits → Nat) : Sampled Nat :=
  match fields.lookup (js key) with
  | none => .ok (limit defaultLimits)
  | some value =>
    if isAccessor value then fail .invalidOptions ("options." ++ key ++ " must be data")
    else positiveInteger value ("options." ++ key) (limit hardLimits)

def resolveLimits (fields : List (Text × JsValue)) : Sampled TargetSamplerLimits := do
  let exhaustiveSourceFileLimit ←
    resolveLimit fields "exhaustiveSourceFileLimit" (·.exhaustiveSourceFileLimit)
  let maximumActivationFacts ←
    resolveLimit fields "maximumActivationFacts" (·.maximumActivationFacts)
  let maximumCriticalPaths ← resolveLimit fields "maximumCriticalPaths" (·.maximumCriticalPaths)
  let maximumDurationMs ← resolveLimit fields "maximumDurationMs" (·.maximumDurationMs)
  let maximumPathTextBytes ← resolveLimit fields "maximumPathTextBytes" (·.maximumPathTextBytes)
  let maximumPaths ← resolveLimit fields "maximumPaths" (·.maximumPaths)
  let maximumRulesPerPath ← resolveLimit fields "maximumRulesPerPath" (·.maximumRulesPerPath)
  let maximumSamples ← resolveLimit fields "maximumSamples" (·.maximumSamples)
  let maximumWorkspaceBoundaries ←
    resolveLimit fields "maximumWorkspaceBoundaries" (·.maximumWorkspaceBoundaries)
  return { exhaustiveSourceFileLimit, maximumActivationFacts, maximumCriticalPaths,
           maximumDurationMs, maximumPaths, maximumPathTextBytes, maximumRulesPerPath,
           maximumSamples, maximumWorkspaceBoundaries }

variable (clock : TargetSamplerClock)

/-- The check of `options.clock`, whose `now` is no value that JSON has. -/
def checkClock (value : JsValue) : Sampled Unit :=
  match value with
  | .undefined => .ok ()
  | .exotic .accessor => fail .invalidOptions "options.clock must be data"
  | .object [(name, .exotic .notJson)] =>
    failIf (name ≠ js "now" ∨ clock.callable = false) .invalidOptions
      "options.clock.now is invalid"
  | .object _ => fail .invalidOptions "options.clock.now is invalid"
  | _ => fail .invalidOptions "options.clock is invalid"

def resolveOptions (value : JsValue) : Sampled TargetSamplerLimits :=
  match value with
  | .undefined => .ok defaultLimits
  | .object fields => do
    failIf (¬ ∀ key ∈ keys fields, key ∈ js "clock" :: limitKeys.map js) .invalidOptions
      "options contain an unknown field"
    let limits ← resolveLimits fields
    checkClock clock (get fields (js "clock"))
    return limits
  | _ => fail .invalidOptions "options must be a non-proxy data record"

/-- What becomes of a reading, with what is said of a late one. -/
def readClock (reading : ClockReading) (code : TargetSamplerErrorCode) (message : String) :
    Sampled Unit :=
  match reading with
  | .failed => fail .invalidOptions "options.clock.now failed"
  | .notFinite => fail .invalidOptions "options.clock.now must be finite"
  | .late => fail code message
  | .inTime => .ok ()

def checkDeadline (place : SamplerCheckpoint) : Sampled Unit :=
  readClock (clock.reading place) .deadlineExceeded "target sampling deadline exceeded"

/-- `if (index % 1_024 === 0) checkDeadline(clock, deadline)` -/
def checkDeadlineAt (place : Nat → SamplerCheckpoint) (index : Nat) : Sampled Unit :=
  if index % 1024 = 0 then checkDeadline clock (place index) else .ok ()

/-! ## Source paths -/

/-- `path.slice(path.lastIndexOf("/") + 1)` -/
def rawName (path : RelativePath) : Text := path.rtakeWhile (· != 0x2f)

def directoryOf (path : RelativePath) : RelativePath :=
  if 0x2f ∈ path then (path.rdropWhile (· != 0x2f)).dropLast else repositoryRoot

/-- `name.slice(name.lastIndexOf("."))`, where there is a dot. -/
def extensionOf (name : Text) : Option Text :=
  if 0x2e ∈ name then some (0x2e :: name.rtakeWhile (· != 0x2e)) else none

/-- `LANGUAGE_BASENAMES[rawName]` -/
def basenameLanguage (name : Text) : Option SourceLanguage :=
  match languageBasenames.lookup name with
  | some language => some (.listed language)
  | none => if name ∈ inheritedNames then some (.inherited name) else none

/-- Names with a dot are inherited by no table. -/
def extensionLanguage (name : Text) : Option SourceLanguage :=
  (extensionOf name).bind fun extension => (languageExtensions.lookup extension).map .listed

variable (toLowerCase : Text → Text)

def classifyNormalizedTargetSourcePath (path : RelativePath) : Option SourceLanguage :=
  match basenameLanguage (rawName path) with
  | some language => some language
  | none => extensionLanguage (toLowerCase (rawName path))

structure Source where
  directory : RelativePath
  language : SourceLanguage
  path : RelativePath

/-- The source paths among the tracked ones. -/
def sourcesOf (paths : List RelativePath) : List Source :=
  paths.filterMap fun path => (classifyNormalizedTargetSourcePath toLowerCase path).map fun language =>
    { directory := directoryOf path, language, path }

/-! ## Reading the input -/

/-- The loop over `paths`, with the bytes so far. -/
def readPathsFrom (clock : TargetSamplerClock) (maximumBytes : Nat) :
    (index bytes : Nat) → List JsValue → Sampled (List RelativePath)
  | _, _, [] => .ok []
  | index, bytes, value :: rest => do
    checkDeadlineAt clock .path index
    let path ← pathValue value (indexed "paths" index)
    failIf (maximumBytes < bytes + Utf8.byteLength path) .resourceLimit
      "path text exceeds its byte limit"
    let others ← readPathsFrom clock maximumBytes (index + 1) (bytes + Utf8.byteLength path) rest
    return path :: others

variable (clock : TargetSamplerClock) (limits : TargetSamplerLimits)

def readPaths (value : JsValue) : Sampled (List RelativePath) := do
  let raw ← denseArray value limits.maximumPaths "paths"
  let paths ← readPathsFrom clock limits.maximumPathTextBytes 0 0 raw
  failIf (¬ paths.Nodup) .invalidRelationship "paths must be unique"
  return sortBy compareUnits paths

def readUncertaintyReason (index : Nat) (value : JsValue) : Sampled Text := do
  let label := indexed "workspaceUncertaintyReasons" index
  let reason ← boundedText value label 1024
  failIf (isId reason = false) .invalidInput (label ++ " is invalid")
  return reason

def readProvenance (input : List (Text × JsValue)) : Sampled TargetSamplingProvenance := do
  let trackingCertainty ← textWhere [js "tracked", js "all-files-not-tracked"].contains
    (get input (js "trackingCertainty")) .invalidInput "trackingCertainty is invalid"
  let trackingReason ← textWhere trackingReasons.contains
    (get input (js "trackingReason")) .invalidInput "trackingReason is invalid"
  failIf (¬ (trackingCertainty = js "tracked" ↔ trackingReason = js "verified-git-index"))
    .invalidRelationship "tracking certainty and reason disagree"
  let workspaceUncertainty ← textWhere [js "known", js "uncertain"].contains
    (get input (js "workspaceUncertainty")) .invalidInput "workspaceUncertainty is invalid"
  let raw ← denseArray (get input (js "workspaceUncertaintyReasons")) 1000
    "workspaceUncertaintyReasons"
  let reasons ← mapEntries readUncertaintyReason raw
  failIf (¬ reasons.Nodup) .invalidRelationship "workspace uncertainty reasons must be unique"
  failIf (¬ (workspaceUncertainty = js "known" ↔ reasons = [])) .invalidRelationship
    "workspace uncertainty state and reasons disagree"
  return { trackingCertainty, trackingReason, workspaceUncertainty,
           workspaceUncertaintyReasons := sortBy compareUnits reasons }

/-- One round of the loop over `workspaceBoundaries`, up to the root it finds. -/
def readBoundary (index : Nat) (value : JsValue) : Sampled RelativePath := do
  checkDeadlineAt clock .boundary index
  let label := indexed "workspaceBoundaries" index
  let item ← record value ["evidencePath", "family", "kind", "languages", "root"] label
  let _ ← pathValue (get item (js "evidencePath")) (label ++ ".evidencePath")
  let family ← boundedText (get item (js "family")) (label ++ ".family") 512
  failIf (family ∉ workspaceFamilies) .invalidInput (label ++ ".family is invalid")
  let _ ← textWhere [js "project", js "source", js "workspace"].contains
    (get item (js "kind")) .invalidInput (label ++ ".kind is invalid")
  let languages ← denseArray (get item (js "languages")) 16 (label ++ ".languages")
  let _ ← mapEntries (fun index language => textWhere workspaceLanguages.contains language
    .invalidInput (indexed (label ++ ".languages") index ++ " is invalid")) languages
  rootValue (get item (js "root")) (label ++ ".root")

structure NormalizedWorkspace where
  id : Text
  root : RelativePath

def workspaceMap (roots : List RelativePath) : OrderedMap Text NormalizedWorkspace :=
  roots.foldl (fun map root => map.set root { id := root, root }) .empty

def readWorkspaces (value : JsValue) : Sampled (List NormalizedWorkspace) := do
  let raw ← denseArray value limits.maximumWorkspaceBoundaries "workspaceBoundaries"
  let roots ← mapEntries (readBoundary clock) raw
  return sortBy (comparingWith compareUnits (·.id)) (workspaceMap roots).values

def readFact (index : Nat) (value : JsValue) : Sampled TargetActivationFact := do
  let stateLabel := indexed (label ++ ".states") index
  let fields ← record value ["ruleId", "state"] stateLabel
  let ruleId ← boundedText (get fields (js "ruleId")) (stateLabel ++ ".ruleId") 512
  failIf (isId ruleId = false) .invalidInput (stateLabel ++ ".ruleId is invalid")
  match (get fields (js "state")).text?.bind ActivationState.ofText with
  | some state => return { ruleId, state }
  | none => fail .invalidInput (stateLabel ++ ".state is invalid")

def ruleIds (states : List TargetActivationFact) : List Text := states.map (·.ruleId)

/-- Activation states in the order of their rules. -/
def sortFacts (facts : List TargetActivationFact) : List TargetActivationFact :=
  sortBy (comparingWith compareUnits (·.ruleId)) facts

/-- What the loop over `activationObservations` keeps. -/
structure ObservationState where
  observations : OrderedMap RelativePath (List TargetActivationFact)
  activationFactCount : Nat
  ruleUniverse : Option (List Text)

def unobserved : ObservationState := ⟨.empty, 0, none⟩

variable (sourcePaths : List RelativePath)

def readObservation (index : Nat) (state : ObservationState) (value : JsValue) :
    Sampled ObservationState := do
  checkDeadlineAt clock .observation index
  let label := indexed "activationObservations" index
  let item ← record value ["path", "states"] label
  let path ← pathValue (get item (js "path")) (label ++ ".path")
  failIf (path ∉ sourcePaths ∨ path ∈ state.observations.keys) .invalidRelationship
    (label ++ ".path must identify one unique source path")
  let raw ← denseArray (get item (js "states")) limits.maximumRulesPerPath
    (label ++ ".states")
  failIf (limits.maximumActivationFacts < state.activationFactCount + raw.length) .resourceLimit
    "activation facts exceed their total limit"
  let facts ← mapEntries (readFact label) raw
  failIf (¬ (ruleIds (sortFacts facts)).Nodup) .invalidRelationship
    (label ++ ".states contain duplicate rules")
  failIf (state.ruleUniverse.any (· != ruleIds (sortFacts facts)) = true) .invalidRelationship
    "every source observation must cover the same rule universe"
  return { observations := state.observations.set path (sortFacts facts),
           activationFactCount := state.activationFactCount + raw.length,
           ruleUniverse := some (ruleIds (sortFacts facts)) }

def readObservationsFrom (clock : TargetSamplerClock) (limits : TargetSamplerLimits)
    (sourcePaths : List RelativePath) :
    Nat → ObservationState → List JsValue → Sampled ObservationState
  | _, state, [] => .ok state
  | index, state, value :: rest => do
    let next ← readObservation clock limits sourcePaths index state value
    readObservationsFrom clock limits sourcePaths (index + 1) next rest

def readObservations (value : JsValue) : Sampled ObservationState := do
  let raw ← denseArray value limits.maximumPaths "activationObservations"
  let state ← readObservationsFrom clock limits sourcePaths 0 unobserved raw
  failIf (state.observations.keys.length ≠ sourcePaths.length) .invalidRelationship
    "every source path needs exactly one activation observation"
  return state

def readCriticalPaths (value : JsValue) : Sampled (List RelativePath) := do
  let raw ← denseArray value limits.maximumCriticalPaths "criticalPaths"
  let paths ← mapEntries (fun index value => pathValue value (indexed "criticalPaths" index)) raw
  failIf (¬ paths.Nodup) .invalidRelationship "critical paths must be unique"
  return sortBy compareUnits paths

/-- What is read of an input. -/
structure NormalizedInput where
  paths : List RelativePath
  provenance : TargetSamplingProvenance
  workspaces : List NormalizedWorkspace
  observed : ObservationState
  criticalPaths : List RelativePath

def normalizeInput (value : JsValue) : Sampled NormalizedInput := do
  let input ← record value ["activationObservations", "criticalPaths", "paths", "trackingCertainty",
    "trackingReason", "workspaceBoundaries", "workspaceUncertainty", "workspaceUncertaintyReasons"]
    "input"
  let paths ← readPaths clock limits (get input (js "paths"))
  let provenance ← readProvenance input
  let workspaces ← readWorkspaces clock limits (get input (js "workspaceBoundaries"))
  let observed ← readObservations clock limits ((sourcesOf toLowerCase paths).map (·.path))
    (get input (js "activationObservations"))
  let criticalPaths ← readCriticalPaths limits (get input (js "criticalPaths"))
  return { paths, provenance, workspaces, observed, criticalPaths }

/-! ## Partitions -/

def partitionId (states : List TargetActivationFact) : Text :=
  js "partition:" ++ Sha256.sha256Hex (Utf8.encode (js "target-activation-partition-v1") ++
    states.flatMap fun fact => [fact.ruleId, fact.state.text].flatMap fun field =>
      0 :: Netstring.frame (Utf8.encode field))

def signatureOf (fact : TargetActivationFact) : Text :=
  Netstring.decimalText fact.ruleId.length ++ js ":" ++ fact.ruleId ++ js ":" ++ fact.state.text

def partitionSignature (states : List TargetActivationFact) : Text :=
  (js "|").intercalate (states.map signatureOf)

structure Candidate extends Source where
  partitionId : Text

/-- The loop over `sources`, with the partitions of the signatures so far. -/
def candidatesFrom (observations : OrderedMap RelativePath (List TargetActivationFact)) :
    OrderedMap Text Text → List Source → List Candidate
  | _, [] => []
  | ids, source :: rest =>
    let states := (observations.get? source.path).getD []
    let id := (ids.get? (partitionSignature states)).getD (partitionId states)
    { source with partitionId := id } ::
      candidatesFrom observations (ids.set (partitionSignature states) id) rest

/-! ## Workspaces -/

/-- `startsWith` with the root and a slash. -/
def underRoot (path root : RelativePath) : Bool :=
  root == repositoryRoot || (root ++ js "/").isPrefixOf path

variable (paths : List RelativePath)

def lowerBound (value : Text) : Nat :=
  Bisect.bisect (fun middle => paths[middle]?.any (· < value)) paths.length

/-- The end of the range is looked up behind the root, a slash and U+10FFFF. -/
def underRootRange (root : RelativePath) : Nat × Option RelativePath :=
  if root = repositoryRoot then (paths.length, paths.head?)
  else
    let start := lowerBound paths (root ++ js "/")
    let stop := lowerBound paths (root ++ js "/" ++ [0xdbff, 0xdfff])
    (stop - start, (paths[start]?).filter (underRoot · root))

/-! ## Criteria -/

structure CoverageGroup where
  count : Nat
  first : RelativePath

def tally (groups : OrderedMap Text CoverageGroup) (id : Text)
    (path : RelativePath) : OrderedMap Text CoverageGroup :=
  match groups.get? id with
  | none => groups.set id { count := 1, first := path }
  | some group => groups.set id { group with count := group.count + 1 }

def tallyBy (id : Candidate → Text) (candidates : List Candidate) : OrderedMap Text CoverageGroup :=
  candidates.foldl (fun groups candidate => tally groups (id candidate) candidate.path) .empty

def languageDirectoryId (candidate : Candidate) : Text :=
  candidate.language.text ++ js ":" ++ candidate.directory

def criterion (kind : TargetCoverageKind) (id : Text) (paths : List RelativePath) :
    TargetCoverageCriterion where
  candidateCount := paths.length
  id := id
  kind := kind
  selectedPath := paths.head?
  status := if paths.length = 0 then .unavailable else .covered

def criticalCriterion (path : RelativePath) :
    TargetCoverageCriterion := criterion .criticalPath path (if path ∈ paths then [path] else [])

def workspaceCriterion (workspace : NormalizedWorkspace) : TargetCoverageCriterion :=
  let range := underRootRange paths workspace.root
  { candidateCount := range.1
    id := workspace.id
    kind := .workspaceRoot
    selectedPath := range.2
    status := if range.2 = none then .unavailable else .covered }

def groupCriterion (kind : TargetCoverageKind) (entry : Text × CoverageGroup) :
    TargetCoverageCriterion where
  candidateCount := entry.2.count
  id := entry.1
  kind := kind
  selectedPath := some entry.2.first
  status := .covered

def sortedEntries (groups : OrderedMap Text CoverageGroup) : List (Text × CoverageGroup) :=
  sortBy (comparingWith compareUnits (·.1)) groups.entries

def exhaustiveCriterion (sources : List Source) : TargetCoverageCriterion where
  candidateCount := sources.length
  id := js "all"
  kind := .exhaustiveSourceSet
  selectedPath := sources.head?.map (·.path)
  status := .covered

def reasonOf (criterion : TargetCoverageCriterion) : Text :=
  criterion.kind.text ++ js ":" ++ criterion.id

/-! ## Selection -/

abbrev Reasons := OrderedMap RelativePath (List Text)

def select (reasons : Reasons) (path : Option RelativePath) (reason : Text) : Sampled Reasons :=
  match path with
  | none => .ok reasons
  | some path => do
    let current := (reasons.get? path).getD []
    let reasons := reasons.set path (if reason ∈ current then current else current ++ [reason])
    failIf (limits.maximumSamples < reasons.keys.length) .resourceLimit
      "required coverage exceeds maximumSamples"
    return reasons

/-- The criteria in the order in which they are pushed, and what each of them selects. -/
def selectCriterion (reasons : Reasons) (criterion : TargetCoverageCriterion) : Sampled Reasons :=
  select limits reasons criterion.selectedPath (reasonOf criterion)

def compareCriteria : TargetCoverageCriterion → TargetCoverageCriterion → Ordering :=
  compareLex (comparingWith compareUnits (·.kind.text)) (comparingWith compareUnits (·.id))

def sampledTarget (candidates : List Candidate) (entry : RelativePath × List Text) :
    SampledTarget :=
  let candidate := candidates.find? (·.path = entry.1)
  { activationPartitionId := candidate.map (·.partitionId)
    language := candidate.map (·.language)
    path := entry.1
    reasons := sortBy compareUnits entry.2 }

variable (input : NormalizedInput)

def requiredCriteria (candidates : List Candidate) : List TargetCoverageCriterion :=
  input.criticalPaths.map (criticalCriterion input.paths) ++
    input.workspaces.map (workspaceCriterion (candidates.map (·.path))) ++
    (sortedEntries (tallyBy (·.partitionId) candidates)).map (groupCriterion .scopePartition) ++
    (sortedEntries (tallyBy languageDirectoryId candidates)).map (groupCriterion .languageDirectory)

def isExhaustive (sources : List Source) : Bool :=
  decide (sources.length ≤ limits.exhaustiveSourceFileLimit)

variable (sources : List Source)

/-- All criteria, in the order of `coverage.push`. -/
def allCriteria (candidates : List Candidate) : List TargetCoverageCriterion :=
  (if isExhaustive limits sources then [exhaustiveCriterion sources] else []) ++
    requiredCriteria input candidates

/-- Each source path is selected where the sample is exhaustive, then what the criteria ask for. -/
def selectTargets (candidates : List Candidate) : Sampled Reasons := do
  let reasons ← if isExhaustive limits sources then
      sources.foldlM (fun reasons source =>
        select limits reasons (some source.path) (js "exhaustive-source-set:all")) .empty
    else .ok .empty
  (requiredCriteria input candidates).foldlM (selectCriterion limits) reasons

def assembleResult (candidates : List Candidate) (reasons : Reasons) : TargetSamplingResult :=
  let coverage := sortBy compareCriteria (allCriteria limits input sources candidates)
  { coverage
    limits
    metrics :=
      { activationFactCount := input.observed.activationFactCount
        criticalPathCount := input.criticalPaths.length
        languageDirectoryCount := (tallyBy languageDirectoryId candidates).keys.length
        partitionCount := (tallyBy (·.partitionId) candidates).keys.length
        sourcePathCount := sources.length
        trackedPathCount := input.paths.length
        workspaceRootCount := input.workspaces.length }
    provenance := input.provenance
    selected := (sortBy (comparingWith compareUnits (·.1)) reasons.entries).map
      (sampledTarget candidates)
    state :=
      if input.provenance.trackingCertainty = js "tracked" ∧
          input.provenance.workspaceUncertainty = js "known" ∧
          ¬ ∃ criterion ∈ coverage, criterion.status = .unavailable then .complete
      else .incomplete
    strategy := if isExhaustive limits sources then .exhaustive else .stratified }

/-- What is sampled for an input that has been read. -/
def sampleInput (input : NormalizedInput) : Sampled TargetSamplingResult := do
  let sources := sourcesOf toLowerCase input.paths
  let candidates := candidatesFrom input.observed.observations .empty sources
  let reasons ← selectTargets limits input sources candidates
  checkDeadline clock .finish
  return assembleResult limits input sources candidates reasons

def sampleTargets (value options : JsValue) : Sampled TargetSamplingResult := do
  let limits ← resolveOptions clock options
  readClock (clock.reading .start) .invalidOptions "sampling deadline is outside finite range"
  let input ← normalizeInput toLowerCase clock limits value
  sampleInput toLowerCase clock limits input

end TargetSampler

end AgentContextLint
