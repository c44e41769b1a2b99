import AgentContextLint.Lib.Exploration
import AgentContextLint.Lib.PromiseJobs

/-!
# Opening behind a bounded wait

Model of `#openFile`, `#openDirectory` and `#awaitBounded` in
`packages/evidence/src/read-only-filesystem.ts`: the state of one call whose platform open has been
started, and what may happen to it at any time. The two openers differ in the open and in the text
of their error only.
-/

namespace AgentContextLint.BoundedOpen

/-- `isFacadeError` tells them apart. -/
inductive OpenError
  | facade
  | platform
  deriving DecidableEq

/-- The reactions of the promises, and the continuations of the two functions. -/
inductive Job
  | raceOperation
  | raceDeadline
  | raceCancelled
  /-- `#awaitBounded` goes on behind the race. -/
  | resumeBounded
  /-- The opener goes on behind `#awaitBounded`. -/
  | resumeOpen
  /-- The handler that closes a late handle. -/
  | close
  deriving DecidableEq

inductive Body
  | opening
  | returned
  | thrown
  deriving DecidableEq

structure State where
  hasSignal : Bool
  isAborted : Bool
  /-- The timer runs, and the signal is listened to. -/
  listens : Bool
  operation : Deferred OpenError Job
  deadline : Deferred OpenError Job
  cancelled : Deferred OpenError Job
  race : Deferred OpenError Job
  /-- The promise of `#awaitBounded`. -/
  bounded : Deferred OpenError Job
  queue : List Job
  body : Body
  /-- How often the handle was closed. -/
  closes : Nat

namespace State

variable (state : State)

def settleOperation (outcome : PromiseState OpenError) : State :=
  let (operation, jobs) := state.operation.settle outcome
  { state with operation, queue := state.queue ++ jobs }

def settleDeadline (state : State) : State :=
  let (deadline, jobs) := state.deadline.settle (.rejected .facade)
  { state with deadline, queue := state.queue ++ jobs }

def settleCancelled (state : State) : State :=
  let (cancelled, jobs) := state.cancelled.settle (.rejected .facade)
  { state with cancelled, queue := state.queue ++ jobs }

def settleRace (outcome : PromiseState OpenError) : State :=
  let (race, jobs) := state.race.settle outcome
  { state with race, queue := state.queue ++ jobs }

def settleBounded (outcome : PromiseState OpenError) : State :=
  let (bounded, jobs) := state.bounded.settle outcome
  { state with bounded, listens := false, queue := state.queue ++ jobs }

/-- The signal is aborted; the promise `cancelled` rejects if it listens. -/
def abort (state : State) : State :=
  let state := { state with isAborted := true }
  if state.listens then state.settleCancelled else state

/-- `#awaitBounded` behind the race. -/
def afterRace (clockRefuses : Bool) : State :=
  match state.race.state with
  | .fulfilled =>
    if state.isAborted ∨ clockRefuses then state.settleBounded (.rejected .facade)
    else state.settleBounded .fulfilled
  | .rejected error => state.settleBounded (.rejected error)
  | .pending => state

/-- The opener behind `#awaitBounded`. -/
def afterBounded (state : State) : State :=
  match state.bounded.state with
  | .fulfilled => { state with body := .returned }
  | .rejected .facade =>
    let (operation, jobs) := state.operation.attach .close
    { state with operation, body := .thrown, queue := state.queue ++ jobs }
  | .rejected .platform => { state with body := .thrown }
  | .pending => state

def runJob (clockRefuses : Bool) : Job → State
  | .raceOperation => state.settleRace state.operation.state
  | .raceDeadline => state.settleRace (.rejected .facade)
  | .raceCancelled => state.settleRace (.rejected .facade)
  | .resumeBounded => state.afterRace clockRefuses
  | .resumeOpen => state.afterBounded
  | .close =>
    if state.operation.state = .fulfilled then { state with closes := state.closes + 1 } else state

end State

/-- The checkpoint at the start of `#awaitBounded` has passed, and the race is awaited. -/
def racing (hasSignal : Bool) : State where
  hasSignal := hasSignal
  isAborted := false
  listens := true
  operation := .waiting [.raceOperation]
  deadline := .waiting [.raceDeadline]
  cancelled := .waiting (if hasSignal then [.raceCancelled] else [])
  race := .waiting [.resumeBounded]
  bounded := .waiting [.resumeOpen]
  queue := []
  body := .opening
  closes := 0

/-- The checkpoint has failed; nothing is raced. -/
def refused (hasSignal isAborted : Bool) : State :=
  { racing hasSignal with
    isAborted
    listens := false
    operation := .waiting []
    bounded := ⟨.rejected .facade, []⟩
    queue := [.resumeOpen] }

/-- A call behind the start of the platform open. The signal may be aborted while the clock is
looked at, and the listener then runs at once. -/
def Starts (state : State) : Prop :=
  ∃ hasSignal, state = racing hasSignal ∨ (hasSignal = true ∧ state = (racing true).abort) ∨
    ∃ isAborted, state = refused hasSignal isAborted

/-- What may happen; a job looks at the clock, if it does, by itself. -/
inductive Event
  | operationFulfils
  | operationRejects (error : OpenError)
  | abort
  | deadlineTimer
  | job (clockRefuses : Bool)

def step (state : State) : Event → Option State
  | .operationFulfils =>
    if state.operation.state = .pending then some (state.settleOperation .fulfilled) else none
  | .operationRejects error =>
    if state.operation.state = .pending then some (state.settleOperation (.rejected error))
    else none
  | .abort => if state.hasSignal then some state.abort else none
  | .deadlineTimer => if state.listens then some state.settleDeadline else none
  | .job clockRefuses =>
    match state.queue with
    | [] => none
    | job :: rest => some ({ state with queue := rest }.runJob clockRefuses job)

end AgentContextLint.BoundedOpen
