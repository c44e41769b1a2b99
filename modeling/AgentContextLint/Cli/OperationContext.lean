import AgentContextLint.Lib.Exploration
import AgentContextLint.Lib.PromiseJobs

/-!
# Waiting under cancellation

Model of `OperationContext.wait` in `packages/cli/src/git-metadata-executor.ts`, called with a
cleanup behind its first checkpoint: the state of one call, and what may happen to it at any time.
-/

namespace AgentContextLint.OperationContext

/-- The reactions of the promises, and the continuations of the call. -/
inductive Job
  /-- The handler that cleans up a late value. -/
  | late
  | raceOperation
  | raceCancellation
  /-- The call goes on behind the race. -/
  | resume
  /-- The call goes on behind a cleanup of its own. -/
  | afterCleanup
  deriving DecidableEq

inductive Body
  | awaiting
  | cleaning
  | returned
  | thrown
  deriving DecidableEq

structure State where
  /-- `#failure` is not `null`. -/
  isFailed : Bool
  /-- `onAbort` listens to the signal. -/
  listens : Bool
  operation : Deferred Unit Job
  cancellation : Deferred Unit Job
  race : Deferred Unit Job
  cleanup : Deferred Unit Job
  queue : List Job
  lostRace : Bool
  body : Body
  /-- How often `cleanupLate` was called. -/
  cleanups : Nat
  deriving DecidableEq

/-- The operation has been started, and the call awaits the race. -/
def started : State where
  isFailed := false
  listens := true
  operation := .waiting [.late, .raceOperation]
  cancellation := .waiting [.raceCancellation]
  race := .waiting [.resume]
  cleanup := .waiting []
  queue := []
  lostRace := false
  body := .awaiting
  cleanups := 0

namespace State

variable (state : State)

def settleOperation (outcome : PromiseState Unit) : State :=
  let (operation, jobs) := state.operation.settle outcome
  { state with operation, queue := state.queue ++ jobs }

def settleCancellation (state : State) : State :=
  let (cancellation, jobs) := state.cancellation.settle (.rejected ())
  { state with cancellation, queue := state.queue ++ jobs }

def settleRace (outcome : PromiseState Unit) : State :=
  let (race, jobs) := state.race.settle outcome
  { state with race, queue := state.queue ++ jobs }

def settleCleanup (state : State) : State :=
  let (cleanup, jobs) := state.cleanup.settle .fulfilled
  { state with cleanup, queue := state.queue ++ jobs }

/-- `#fail`: the first failure aborts the signal. -/
def fail (state : State) : State :=
  if state.isFailed then state
  else
    let state := { state with isFailed := true }
    if state.listens then state.settleCancellation else state

/-- The outer `catch` and `finally`. -/
def rethrow (state : State) : State :=
  { state with lostRace := state.isFailed, body := .thrown, listens := false }

/-- The value is cleaned up, and the call awaits that. -/
def startCleanup (state : State) : State :=
  let (cleanup, jobs) := state.cleanup.attach .afterCleanup
  { state with
    body := .cleaning
    cleanup
    cleanups := state.cleanups + 1
    queue := state.queue ++ jobs }

/-- The checkpoint behind the race, and the return of the value. -/
def afterRace (isPastDeadline : Bool) : State :=
  if state.isFailed then state.startCleanup
  else if isPastDeadline then state.fail.startCleanup
  else { state with body := .returned, listens := false }

def runJob (isPastDeadline : Bool) : Job → State
  | .late =>
    if state.operation.state = .fulfilled ∧ state.lostRace = true then
      { state with cleanups := state.cleanups + 1 }
    else state
  | .raceOperation => state.settleRace state.operation.state
  | .raceCancellation => state.settleRace (.rejected ())
  | .resume =>
    match state.race.state with
    | .fulfilled => state.afterRace isPastDeadline
    | .rejected _ => state.rethrow
    | .pending => state
  | .afterCleanup => state.rethrow

end State

/-- What may happen; a job looks at the clock, if it does, by itself. -/
inductive Event
  | operationFulfils
  | operationRejects
  | externalAbort
  | deadlineTimer
  | cleanupSettles
  | job (isPastDeadline : Bool)
  deriving DecidableEq

def step (state : State) : Event → Option State
  | .operationFulfils =>
    if state.operation.state = .pending then some (state.settleOperation .fulfilled) else none
  | .operationRejects =>
    if state.operation.state = .pending then some (state.settleOperation (.rejected ())) else none
  | .externalAbort => some state.fail
  | .deadlineTimer => some state.fail
  | .cleanupSettles =>
    if state.body = .cleaning ∧ state.cleanup.state = .pending then some state.settleCleanup
    else none
  | .job isPastDeadline =>
    match state.queue with
    | [] => none
    | job :: rest => some ({ state with queue := rest }.runJob isPastDeadline job)

end AgentContextLint.OperationContext
