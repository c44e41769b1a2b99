import AgentContextLint.Cli.OperationContext
import AgentContextLint.Evidence.HandleOwner

/-!
# The owner of what a call waits for

`OperationContext.wait` decides in its last `catch` block whether a late value is to be cleaned up.
If the operation fulfils after the cancellation, but before the race has heard of it, the handler
of the late value runs in front of that block, and nobody cleans the value up. A run without such a
step is `Timely`; the states of all runs are explored, each with whether its run was.
-/

namespace AgentContextLint.OperationContext

open Exploration

/-! ## Ownership -/

/-- The operation is settled, and neither a job nor a cleanup is left. -/
def Ended (state : State) : Prop :=
  state.operation.state ≠ .pending ∧ state.queue = [] ∧ state.body ≠ .cleaning

/-- A value was returned and is not cleaned up, or it was cleaned up once and the call failed. -/
def OneOwner (state : State) : Prop :=
  (state.body = .returned ∧ state.operation.state = .fulfilled ∧ state.cleanups = 0) ∨
  (state.body = .thrown ∧ state.cleanups = if state.operation.state = .fulfilled then 1 else 0)

/-- Never cleaned up twice, and never cleaned up when it is returned. -/
def Safe (state : State) : Prop :=
  state.cleanups ≤ 1 ∧ (state.body = .returned → state.cleanups = 0)

instance (state : State) : Decidable (Ended state) :=
  inferInstanceAs (Decidable (_ ∧ _ ∧ _))

instance (state : State) : Decidable (OneOwner state) :=
  inferInstanceAs (Decidable ((_ ∧ _ ∧ _) ∨ (_ ∧ _)))

instance (state : State) : Decidable (Safe state) :=
  inferInstanceAs (Decidable (_ ∧ (_ → _)))

/-- The operation fulfils while the race is about to hear of the cancellation. -/
def IsMissed (state : State) (event : Event) : Prop :=
  event = .operationFulfils ∧ .raceCancellation ∈ state.queue

instance (state : State) (event : Event) : Decidable (IsMissed state event) :=
  inferInstanceAs (Decidable (_ ∧ _))

def Timely : State → List Event → Prop
  | _, [] => True
  | state, event :: rest =>
    ¬ IsMissed state event ∧ ∀ next, step state event = some next → Timely next rest

/-! ## The states of all runs -/

/-- A step, and whether the run has been timely. -/
def watchedStep (watched : State × Bool) (event : Event) : Option (State × Bool) :=
  (step watched.1 event).map fun next => (next, watched.2 && !decide (IsMissed watched.1 event))

variable {events : List Event} {state : State}

theorem run_watchedStep {last : State} (timely : Bool) (runs : run step state events = some last) :
    ∃ later, run watchedStep (state, timely) events = some (last, later) ∧
      (later = true ↔ timely = true ∧ Timely state events) := by
  induction events generalizing state timely with
  | nil =>
    cases runs
    exact ⟨timely, rfl, (and_iff_left trivial).symm⟩
  | cons event rest ih =>
    rcases run_cons.mp runs with ⟨next, first, runs⟩
    rcases ih (timely && !decide (IsMissed state event)) runs with ⟨later, watched, same⟩
    refine ⟨later, run_cons.mpr ⟨_, Option.map_eq_some_iff.mpr ⟨next, first, rfl⟩, watched⟩, ?_⟩
    have goesOn : (∀ other, step state event = some other → Timely other rest) ↔
        Timely next rest := by
      constructor
      · exact fun all => all next first
      · intro here other steps
        cases first.symm.trans steps
        exact here
    rw [same, Timely, goesOn, Bool.and_eq_true, Bool.not_eq_true', decide_eq_false_iff_not,
      and_assoc]

def allEvents : List Event :=
  [.operationFulfils, .operationRejects, .externalAbort, .deadlineTimer, .cleanupSettles,
    .job true, .job false]

theorem mem_allEvents (event : Event) : event ∈ allEvents := by
  cases event with
  | job isPastDeadline => cases isPastDeadline <;> decide
  | _ => decide

def explored : List (State × Bool) :=
  explore watchedStep allEvents 64 [(started, true)] [(started, true)]

theorem isClosed_explored : IsClosed watchedStep allEvents explored := by decide +kernel

theorem started_mem_explored : (started, true) ∈ explored := by decide +kernel

theorem owner_of_explored : ∀ watched ∈ explored, Safe watched.1 ∧
    (Ended watched.1 → (OneOwner watched.1 ↔ watched.2 = true)) := by decide +kernel

/-- In the end, a value has one owner exactly if the run was timely. -/
theorem oneOwner_iff_timely (runs : run step started events = some state) :
    Safe state ∧ (Ended state → (OneOwner state ↔ Timely started events)) := by
  rcases run_watchedStep true runs with ⟨later, watched, same⟩
  have member := mem_of_run isClosed_explored mem_allEvents started_mem_explored watched
  rcases owner_of_explored _ member with ⟨safe, owner⟩
  refine ⟨safe, fun ended => (owner ended).trans (same.trans ?_)⟩
  exact and_iff_right rfl

/-! ## The two waits -/

/-- Whatever happens in whatever order: a value that `wait` produces has one owner in the end
exactly if the run is timely, and a handle that the facade opens always has. -/
theorem handle_ownership (events : List Event) (start : BoundedOpen.State)
    (openEvents : List BoundedOpen.Event) :
    (∀ state, run step started events = some state →
      Safe state ∧ (Ended state → (OneOwner state ↔ Timely started events))) ∧
    ∀ state, BoundedOpen.Starts start → run BoundedOpen.step start openEvents = some state →
      BoundedOpen.Safe state ∧ (BoundedOpen.Ended state → BoundedOpen.OneOwner state) := by
  constructor
  · exact fun _ runs => oneOwner_iff_timely runs
  · exact fun _ starts runs => BoundedOpen.oneOwner_of_run starts runs

/-- The value is there before anything else happens. -/
def timelyRun : List Event := [.operationFulfils, .job false, .job false, .job false]

/-- The handle is there only after the deadline. -/
def lateOpen : List BoundedOpen.Event :=
  [.deadlineTimer, .operationFulfils, .job false, .job false, .job false, .job false, .job false]

/-- A value that comes in time is returned, and a handle that comes late is closed. -/
theorem handle_ownership_timely : ∃ state opened,
    run step started timelyRun = some state ∧ Ended state ∧ state.body = .returned ∧
      Timely started timelyRun ∧
    run BoundedOpen.step (BoundedOpen.racing false) lateOpen = some opened ∧
      opened.closes = 1 ∧ BoundedOpen.OneOwner opened := by
  have timely : ∃ state, run step started timelyRun = some state ∧ Ended state ∧
      state.body = .returned ∧ OneOwner state := ⟨_, rfl, by decide, rfl, by decide⟩
  have late : ∃ opened, run BoundedOpen.step (BoundedOpen.racing false) lateOpen = some opened ∧
      opened.closes = 1 ∧ BoundedOpen.Ended opened := ⟨_, rfl, rfl, by decide, rfl⟩
  rcases timely with ⟨state, runs, ended, returned, owned⟩
  rcases late with ⟨opened, opens, closed, endedToo⟩
  have owners := handle_ownership timelyRun (BoundedOpen.racing false) lateOpen
  exact ⟨state, opened, runs, ended, returned, ((owners.1 state runs).2 ended).mp owned, opens,
    closed, (owners.2 opened ⟨false, .inl rfl⟩ opens).2 endedToo⟩

/-- The context is cancelled, and in the same drain of the queue the operation fulfils. -/
def missedRun : List Event :=
  [.externalAbort, .operationFulfils, .job false, .job false, .job false, .job false]

/-- The call fails, and the value is not cleaned up. -/
theorem missedRun_leaks : ∃ state, run step started missedRun = some state ∧ Ended state ∧
    ¬ OneOwner state ∧ state.operation.state = .fulfilled ∧ state.body = .thrown ∧
    state.cleanups = 0 := by
  have runs : ∃ state, run step started missedRun = some state := ⟨_, rfl⟩
  rcases runs with ⟨state, runs⟩
  refine ⟨state, runs, ?_⟩
  cases runs
  decide

end AgentContextLint.OperationContext
