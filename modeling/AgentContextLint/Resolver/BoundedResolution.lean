import AgentContextLint.Core.RepositoryPath
import AgentContextLint.Lib.Sorting
import AgentContextLint.Lib.WorkerPool

/-!
# Bounded multi-target resolution

Model of `packages/resolver/src/bounded-resolution.ts`: the limits, the checks of a task list
and its order (`normalizeTasks`), and the workers that run the executors.

An executor is what becomes of its call: it throws, its promise is rejected, or it gives a
value. The workers of `resolveEffectiveContextsBounded` are a `WorkerPool` over the results kept
so far; `Resolves` relates a task list to each result that some order of the executors leads
to, without an abort signal and before the deadline.
-/

namespace AgentContextLint

open Utf16 Utf8 Metered Sorting
open RepositoryPath (isRepositoryRelativePath)

/-- `CONFIGURATION_PROFILE_IDS` -/
def configurationProfileIds : List Text :=
  [js "claude-code", js "codex-cli", js "copilot-cli", js "copilot-cloud-agent",
    js "copilot-code-review", js "copilot-vscode", js "cursor-agent", js "gemini-cli"]

inductive BoundedResolutionErrorCode
  | cancelled
  | deadlineExceeded
  | invalidInput
  | invalidOptions
  | invalidRelationship
  | resourceLimit
  | taskFailed
  deriving DecidableEq

structure BoundedResolutionError where
  code : BoundedResolutionErrorCode
  message : String
  failedTaskIndexes : List Nat
  deriving DecidableEq

structure BoundedResolutionLimits where
  maximumConcurrency : Nat
  maximumDurationMs : Nat
  maximumResultBytes : Nat
  maximumTaskIdBytes : Nat
  maximumTasks : Nat
  maximumTotalResultBytes : Nat

/-- The limits a caller sets. -/
structure BoundedResolutionOptions where
  maximumConcurrency : Option Int
  maximumDurationMs : Option Int
  maximumResultBytes : Option Int
  maximumTaskIdBytes : Option Int
  maximumTasks : Option Int
  maximumTotalResultBytes : Option Int

structure EffectiveContextResolutionTaskDescriptor where
  clientVersion : Option Text
  id : Text
  profileId : Text
  profileVersion : Text
  specSnapshotId : Text
  surfaceId : Text
  targetPath : RelativePath
  deriving DecidableEq

/-- What the scheduler reads of an issued resolution; `json` is its serialized form. -/
structure BoundedResolution.EffectiveContextResolution where
  clientVersion : Option Text
  json : Text
  profileId : Text
  profileVersion : Text
  specSnapshotId : Text
  surfaceId : Text
  targetPath : RelativePath
  deriving DecidableEq

/-- What becomes of a call of an executor. -/
inductive ExecutorOutcome
  /-- The call throws. -/
  | throws
  /-- The promise is rejected. -/
  | rejects
  /-- A value that no resolver of this process issued. -/
  | unissued
  | issued (resolution : BoundedResolution.EffectiveContextResolution)
  deriving DecidableEq

structure BoundedResolutionEntry where
  resolution : BoundedResolution.EffectiveContextResolution
  taskId : Text

namespace BoundedResolution

variable {descriptor normalized : EffectiveContextResolutionTaskDescriptor}
  {maximumTaskIdBytes : Nat}

/-- `BOUNDED_RESOLUTION_DEFAULT_LIMITS` -/
def defaultLimits : BoundedResolutionLimits where
  maximumConcurrency := 8
  maximumDurationMs := 30000
  maximumResultBytes := 33554432
  maximumTaskIdBytes := 512
  maximumTasks := 65536
  maximumTotalResultBytes := 134217728

/-- `BOUNDED_RESOLUTION_HARD_LIMITS` -/
def hardLimits : BoundedResolutionLimits where
  maximumConcurrency := 64
  maximumDurationMs := 300000
  maximumResultBytes := 268435456
  maximumTaskIdBytes := 16384
  maximumTasks := 1000000
  maximumTotalResultBytes := 1073741824

def fail {α : Type} (code : BoundedResolutionErrorCode) (message : String) :
    Except BoundedResolutionError α :=
  .error ⟨code, message, []⟩

/-- `if (condition) fail(code, message)` -/
def failIf (condition : Prop) [Decidable condition] (code : BoundedResolutionErrorCode)
    (message : String) : Except BoundedResolutionError Unit :=
  if condition then fail code message else .ok ()

/-! ## Options -/

/-- The round of `normalizeOptions` for one limit. -/
def selectLimit (value : Option Int) (default hard : Nat) : Except BoundedResolutionError Nat :=
  match value with
  | none => .ok default
  | some limit =>
    if limit < 1 ∨ hard < limit then
      fail .invalidOptions
        "bounded-resolution limits must be positive integers within hard ceilings"
    else .ok limit.toNat

def normalizeOptions (value : Option BoundedResolutionOptions) :
    Except BoundedResolutionError BoundedResolutionLimits :=
  match value with
  | none => .ok defaultLimits
  | some options => do
    let maximumConcurrency ← selectLimit options.maximumConcurrency
      defaultLimits.maximumConcurrency hardLimits.maximumConcurrency
    let maximumDurationMs ← selectLimit options.maximumDurationMs
      defaultLimits.maximumDurationMs hardLimits.maximumDurationMs
    let maximumResultBytes ← selectLimit options.maximumResultBytes
      defaultLimits.maximumResultBytes hardLimits.maximumResultBytes
    let maximumTaskIdBytes ← selectLimit options.maximumTaskIdBytes
      defaultLimits.maximumTaskIdBytes hardLimits.maximumTaskIdBytes
    let maximumTasks ← selectLimit options.maximumTasks
      defaultLimits.maximumTasks hardLimits.maximumTasks
    let maximumTotalResultBytes ← selectLimit options.maximumTotalResultBytes
      defaultLimits.maximumTotalResultBytes hardLimits.maximumTotalResultBytes
    failIf (maximumTotalResultBytes < maximumResultBytes) .invalidOptions
      "maximumResultBytes must not exceed maximumTotalResultBytes"
    pure { maximumConcurrency, maximumDurationMs, maximumResultBytes, maximumTaskIdBytes,
           maximumTasks, maximumTotalResultBytes }

/-! ## Descriptors -/

/-- The control characters that `wellFormedText` refuses. -/
def isTextControl (unit : CodeUnit) : Bool :=
  let n := unit.toNat
  n ≤ 0x1f || (0x7f ≤ n && n ≤ 0x9f) || n == 0x061c || n == 0x200e || n == 0x200f ||
    (0x202a ≤ n && n ≤ 0x202e) || (0x2066 ≤ n && n ≤ 0x2069)

/-- The loop of `wellFormedText`, on the units still to read. -/
def scanText (label : String) : Text → Except BoundedResolutionError Unit
  | [] => .ok ()
  | [unit] =>
    if isSurrogate unit then fail .invalidInput (label ++ " is not well-formed text")
    else failIf (isTextControl unit) .invalidInput (label ++ " contains control characters")
  | unit :: next :: rest =>
    if isHighSurrogate unit then
      if isLowSurrogate next then scanText label rest
      else fail .invalidInput (label ++ " is not well-formed text")
    else if isLowSurrogate unit then fail .invalidInput (label ++ " is not well-formed text")
    else if isTextControl unit then fail .invalidInput (label ++ " contains control characters")
    else scanText label (next :: rest)

def wellFormedText (value : Text) (maximumBytes : Nat) (label : String) :
    Except BoundedResolutionError Unit := do
  scanText label value
  failIf (value = []) .invalidInput (label ++ " must not be empty")
  failIf (maximumBytes < byteLength value) .resourceLimit (label ++ " exceeds its byte limit")

/-- `rawClientVersion === null ? null : wellFormedText(…)` -/
def wellFormedVersion (clientVersion : Option Text) : Except BoundedResolutionError Unit :=
  match clientVersion with
  | none => .ok ()
  | some version =>
    wellFormedText version hardLimits.maximumTaskIdBytes "resolution task client version"

def normalizeDescriptor (descriptor : EffectiveContextResolutionTaskDescriptor)
    (maximumTaskIdBytes : Nat) :
    Except BoundedResolutionError EffectiveContextResolutionTaskDescriptor := do
  wellFormedVersion descriptor.clientVersion
  wellFormedText descriptor.id maximumTaskIdBytes "resolution task id"
  failIf (descriptor.profileId ∉ configurationProfileIds) .invalidInput
    "resolution task profile is invalid"
  wellFormedText descriptor.profileVersion hardLimits.maximumTaskIdBytes
    "resolution task profile version"
  wellFormedText descriptor.specSnapshotId hardLimits.maximumTaskIdBytes
    "resolution task specification snapshot"
  wellFormedText descriptor.surfaceId hardLimits.maximumTaskIdBytes "resolution task surface"
  failIf (isRepositoryRelativePath descriptor.targetPath = false) .invalidInput
    "resolution task target is invalid"
  pure descriptor

theorem failIf_eq_ok {condition : Prop} [Decidable condition] {code : BoundedResolutionErrorCode}
    {message : String} {out : Unit} : failIf condition code message = .ok out ↔ ¬ condition := by
  unfold failIf fail
  split_ifs with holds
  · exact ⟨fun eq => (by cases eq), fun not => absurd holds not⟩
  · exact ⟨fun _ => holds, fun _ => rfl⟩

/-- What the checks of a descriptor establish, the one of the identifier's length apart. -/
theorem normalizeDescriptor_eq_ok :
    normalizeDescriptor descriptor maximumTaskIdBytes = .ok normalized ↔
      (wellFormedVersion descriptor.clientVersion = .ok () ∧
        wellFormedText descriptor.id maximumTaskIdBytes "resolution task id" = .ok () ∧
        descriptor.profileId ∈ configurationProfileIds ∧
        wellFormedText descriptor.profileVersion hardLimits.maximumTaskIdBytes
          "resolution task profile version" = .ok () ∧
        wellFormedText descriptor.specSnapshotId hardLimits.maximumTaskIdBytes
          "resolution task specification snapshot" = .ok () ∧
        wellFormedText descriptor.surfaceId hardLimits.maximumTaskIdBytes
          "resolution task surface" = .ok () ∧
        isRepositoryRelativePath descriptor.targetPath = true) ∧ descriptor = normalized := by
  simp [normalizeDescriptor, check_bind_eq_ok, failIf_eq_ok, pure, Except.pure, and_assoc]

end BoundedResolution

/-! ## Tasks -/

open BoundedResolution

/-- A task that `createEffectiveContextResolutionTask` issued. -/
structure EffectiveContextResolutionTask extends EffectiveContextResolutionTaskDescriptor where
  executor : ExecutorOutcome
  issued : normalizeDescriptor toEffectiveContextResolutionTaskDescriptor
    hardLimits.maximumTaskIdBytes = .ok toEffectiveContextResolutionTaskDescriptor

namespace BoundedResolution

/-- What a task list may hold: tasks, and values that are none. -/
inductive TaskCandidate
  | task (task : EffectiveContextResolutionTask)
  | foreign

def compareTasks : EffectiveContextResolutionTask → EffectiveContextResolutionTask → Ordering :=
  compareLex (comparingBytes (·.profileId)) <|
  compareLex (comparingBytes (·.surfaceId)) <|
  compareLex (comparingBytes (·.profileVersion)) <|
  compareLex (comparingBytes (·.specSnapshotId)) <|
  compareLex (comparingBytes (·.clientVersion.getD [])) <|
  compareLex (comparingBytes (·.targetPath)) <|
  comparingBytes (·.id)

/-- The array that `taskRelationshipKey` serializes; its texts are equal when the arrays are. -/
structure TaskRelationshipKey where
  profileId : Text
  surfaceId : Text
  profileVersion : Text
  specSnapshotId : Text
  clientVersion : Option Text
  targetPath : RelativePath
  deriving DecidableEq

def taskRelationshipKey (task : EffectiveContextResolutionTaskDescriptor) : TaskRelationshipKey :=
  ⟨task.profileId, task.surfaceId, task.profileVersion, task.specSnapshotId, task.clientVersion,
    task.targetPath⟩

variable (limits : BoundedResolutionLimits)

/-- One round of the map of `normalizeTasks`, behind the tasks already read. -/
def admitTask (read : List EffectiveContextResolutionTask) (candidate : TaskCandidate) :
    Except BoundedResolutionError (List EffectiveContextResolutionTask) :=
  match candidate with
  | .foreign => fail .invalidInput "resolution task was not issued by the E10 task factory"
  | .task task => do
    let normalized ← normalizeDescriptor task.toEffectiveContextResolutionTaskDescriptor
      limits.maximumTaskIdBytes
    failIf (normalized.id ∈ read.map (·.id)) .invalidRelationship
      "resolution task ids must be unique"
    failIf (taskRelationshipKey normalized ∈
        read.map fun task => taskRelationshipKey task.toEffectiveContextResolutionTaskDescriptor)
      .invalidRelationship
      "profile, version, surface, specification, and target task relationships must be unique"
    pure (read ++ [task])

def normalizeTasks (value : List TaskCandidate) (limits : BoundedResolutionLimits) :
    Except BoundedResolutionError (List EffectiveContextResolutionTask) := do
  failIf (limits.maximumTasks < value.length) .resourceLimit
    "resolution task count exceeds its limit"
  let tasks ← value.foldlM (admitTask limits) []
  pure (sortBy compareTasks tasks)

/-! ## Workers -/

inductive TaskFailure
  | execution
  | invalidResult
  deriving DecidableEq

/-- The arrays and the counter that the workers share. -/
structure Slots where
  resolutions : List (Option EffectiveContextResolution)
  failures : List (Option TaskFailure)
  retainedResultBytes : Nat
  deriving DecidableEq

def emptySlots (size : Nat) : Slots := ⟨.replicate size none, .replicate size none, 0⟩

variable (task : EffectiveContextResolutionTask)

def taskMatchesResult (result : EffectiveContextResolution) : Bool :=
  result.profileId = task.profileId ∧ result.profileVersion = task.profileVersion ∧
    result.clientVersion = task.clientVersion ∧ result.specSnapshotId = task.specSnapshotId ∧
    result.surfaceId = task.surfaceId ∧ result.targetPath = task.targetPath

/-- What the worker makes of the outcome of its executor. -/
def assess (task : EffectiveContextResolutionTask) :
    Except TaskFailure EffectiveContextResolution :=
  match task.executor with
  | .throws => .error .execution
  | .rejects => .error .execution
  | .unissued => .error .invalidResult
  | .issued resolution =>
    if taskMatchesResult task resolution then .ok resolution else .error .invalidResult

variable (slots : Slots) (index : Nat)

def Slots.fail (failure : TaskFailure) : Slots :=
  { slots with failures := slots.failures.set index (some failure) }

def Slots.retain (resolution : EffectiveContextResolution) : Slots :=
  { slots with
    resolutions := slots.resolutions.set index (some resolution)
    retainedResultBytes := slots.retainedResultBytes + byteLength resolution.json }

/-- The byte limits before a result is retained; `none` is `stop("resource")`. -/
def Slots.keep (resolution : EffectiveContextResolution) : Option Slots :=
  let bytes := byteLength resolution.json
  if limits.maximumResultBytes < bytes ∨
      limits.maximumTotalResultBytes < slots.retainedResultBytes + bytes then none
  else some (slots.retain index resolution)

/-- The end of a round of `worker`. -/
def settleTask (slots : Slots) : Option Slots :=
  match assess task with
  | .error failure => some (slots.fail index failure)
  | .ok resolution => slots.keep limits index resolution

/-- The tasks as the jobs of the workers. Only an executor that throws is over when its worker
has called it. -/
def jobs (tasks : List EffectiveContextResolutionTask) : WorkerPool.Jobs Slots where
  size := tasks.length
  atOnce index :=
    tasks[index]?.bind fun task =>
      if task.executor = .throws then some fun slots => slots.fail index .execution else none
  record index slots :=
    match tasks[index]? with
    | some task => settleTask limits task index slots
    | none => some slots

def workerCount (tasks : List EffectiveContextResolutionTask) :
    Nat := min limits.maximumConcurrency tasks.length

/-! ## The result -/

def indexesOf (failure : TaskFailure) (failures : List (Option TaskFailure)) : List Nat :=
  (List.range failures.length).filter fun index => failures[index]? = some (some failure)

/-- One round of the map over the tasks at the end. -/
def entryOf (numbered : EffectiveContextResolutionTask × Nat) :
    Except BoundedResolutionError BoundedResolutionEntry :=
  match slots.resolutions[numbered.2]?.join with
  | some resolution => .ok ⟨resolution, numbered.1.id⟩
  | none => .error
      ⟨.invalidRelationship, "bounded resolution lost a completed task result", [numbered.2]⟩

/-- What follows the race of the workers with `stopPromise`. -/
def conclude (tasks : List EffectiveContextResolutionTask) (outcome : Option Slots) :
    Except BoundedResolutionError (List BoundedResolutionEntry) :=
  match outcome with
  | none => fail .resourceLimit "bounded resolution results exceed configured byte limits"
  | some slots =>
    let invalidIndexes := indexesOf .invalidResult slots.failures
    let failedIndexes := indexesOf .execution slots.failures
    if invalidIndexes ≠ [] then
      .error ⟨.invalidRelationship, "resolution tasks returned results for invalid profile, " ++
        "version, surface, specification, or target relationships", invalidIndexes⟩
    else if failedIndexes ≠ [] then
      .error ⟨.taskFailed, "one or more bounded resolution tasks failed", failedIndexes⟩
    else tasks.zipIdx.mapM (entryOf slots)

/-- The pools that the workers may form under some order of their executors. -/
def PoolOf (tasks : List EffectiveContextResolutionTask) : WorkerPool.Pool Slots → Prop :=
  WorkerPool.Reachable (jobs limits tasks) (emptySlots tasks.length) (workerCount limits tasks)

/-- The results of `resolveEffectiveContextsBounded`, one for each order of the executors. -/
inductive Resolves (value : List TaskCandidate) (options : Option BoundedResolutionOptions) :
    Except BoundedResolutionError (List BoundedResolutionEntry) → Prop
  | options {error : BoundedResolutionError} :
    normalizeOptions options = .error error → Resolves value options (.error error)
  | tasks {limits : BoundedResolutionLimits} {error : BoundedResolutionError} :
    normalizeOptions options = .ok limits → normalizeTasks value limits = .error error →
    Resolves value options (.error error)
  | empty {limits : BoundedResolutionLimits} :
    normalizeOptions options = .ok limits → normalizeTasks value limits = .ok [] →
    Resolves value options (.ok [])
  | ended {limits : BoundedResolutionLimits} {tasks : List EffectiveContextResolutionTask}
    {pool : WorkerPool.Pool Slots} :
    normalizeOptions options = .ok limits → normalizeTasks value limits = .ok tasks →
    tasks ≠ [] → PoolOf limits tasks pool → pool.Ended →
    Resolves value options (conclude tasks pool.outcome)

end BoundedResolution

end AgentContextLint
