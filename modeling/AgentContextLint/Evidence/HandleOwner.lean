import AgentContextLint.Evidence.BoundedOpen

/-!
# The owner of an opened handle

A call is racing, then bounded, then done; every event keeps it where it is or takes it on
(`invariant_of_step`). A call that is done has returned the handle, or it has left one closer behind.
-/

namespace AgentContextLint.BoundedOpen

open Deferred
open List (count_eq_zero forall_mem_nil mem_cons_self)

/-! ## The invariant -/

/-- The outcome of the operation, or the failure of the wait. -/
def Answers (outcome operation : PromiseState OpenError) : Prop :=
  outcome = operation ∨ outcome = .rejected .facade

/-- Every promise has only jobs of its own. -/
structure Wired (state : State) : Prop where
  operation : ∀ job ∈ state.operation.reactions, job = .raceOperation ∨ job = .close
  deadline : ∀ job ∈ state.deadline.reactions, job = .raceDeadline
  cancelled : ∀ job ∈ state.cancelled.reactions, job = .raceCancelled
  race : ∀ job ∈ state.race.reactions, job = .resumeBounded
  settled : state.operation.state ≠ .pending → state.operation.reactions = []
  queue : ∀ job ∈ state.queue, job = .raceOperation ∨ job = .close →
    state.operation.state ≠ .pending

/-- The closers that wait, are queued, or have run. -/
def closing (state : State) : Nat :=
  state.operation.reactions.count .close + state.queue.count .close + state.closes

/-- The race is awaited, or its end is queued. -/
structure Racing (state : State) : Prop where
  body : state.body = .opening
  closing : closing state = 0
  bounded : state.bounded = .waiting [.resumeOpen]
  queue : .resumeOpen ∉ state.queue
  baton : (state.race = .waiting [.resumeBounded] ∧
      if state.operation.state = .pending then .raceOperation ∈ state.operation.reactions
      else .raceOperation ∈ state.queue) ∨
    (state.race.state ≠ .pending ∧ Answers state.race.state state.operation.state ∧
      .resumeBounded ∈ state.queue)

/-- The end of `#awaitBounded` is queued. -/
structure Bounded (state : State) : Prop where
  body : state.body = .opening
  closing : closing state = 0
  bounded : state.bounded.state ≠ .pending ∧
    Answers state.bounded.state state.operation.state
  reactions : state.bounded.reactions = []
  queue : state.queue.count .resumeOpen = 1

/-- The handle was returned, or there is one closer, or there is no handle. -/
structure Done (state : State) : Prop where
  bounded : state.bounded.state ≠ .pending
  queue : .resumeOpen ∉ state.queue
  owner : (state.body = .returned ∧ state.operation.state = .fulfilled ∧ closing state = 0) ∨
    (state.body = .thrown ∧ closing state = 1 ∧
      (state.operation.state ≠ .fulfilled → state.closes = 0)) ∨
    (state.body = .thrown ∧ state.closes = 0 ∧ ∃ error, state.operation.state = .rejected error)

def Invariant (state : State) : Prop :=
  Wired state ∧ (Racing state ∨ Bounded state ∨ Done state)

theorem invariant_of_starts {state : State} (starts : Starts state) : Invariant state := by
  rcases starts with ⟨hasSignal, rfl | ⟨_, rfl⟩ | ⟨isAborted, rfl⟩⟩
  · refine ⟨⟨?_, ?_, ?_, ?_, ?_, ?_⟩, .inl ⟨?_, ?_, ?_, ?_, ?_⟩⟩ <;>
      cases hasSignal <;> simp [racing, waiting, closing]
  · refine ⟨⟨?_, ?_, ?_, ?_, ?_, ?_⟩, .inl ⟨?_, ?_, ?_, ?_, ?_⟩⟩ <;>
      simp [racing, waiting, closing, State.abort, State.settleCancelled, Deferred.settle]
  · refine ⟨⟨?_, ?_, ?_, ?_, ?_, ?_⟩, .inr (.inl ⟨?_, ?_, ?_, ?_, ?_⟩)⟩ <;>
      cases hasSignal <;> simp [racing, refused, waiting, closing, Answers]

/-! ## Steps -/

variable {state next : State} {rest : List Job} {outcome : PromiseState OpenError}
  {queue : List Job} {events : List Event} {job : Job}

/-- A job of the deadline or of the signal is queued. -/
theorem invariant_of_lost (here : Invariant state) (isAborted : Bool)
    {deadline cancelled : Deferred OpenError Job} {jobs : List Job}
    (losing : ∀ job ∈ jobs, job = .raceDeadline ∨ job = .raceCancelled)
    (ofDeadline : ∀ job ∈ deadline.reactions, job = .raceDeadline)
    (ofCancelled : ∀ job ∈ cancelled.reactions, job = .raceCancelled) :
    Invariant { state with isAborted, deadline, cancelled, queue := state.queue ++ jobs } := by
  have noClose : jobs.count .close = 0 := by
    apply count_eq_zero.mpr
    intro member
    rcases losing _ member with eq | eq <;> cases eq
  have noResume : jobs.count .resumeOpen = 0 := by
    apply count_eq_zero.mpr
    intro member
    rcases losing _ member with eq | eq <;> cases eq
  rcases here with ⟨wired, phase⟩
  have ran := wired.queue
  refine ⟨⟨wired.operation, ofDeadline, ofCancelled, wired.race, wired.settled, by grind⟩, ?_⟩
  rcases phase with racing | bounded | done
  · left
    constructor
    · exact racing.body
    · simpa [closing, noClose] using racing.closing
    · exact racing.bounded
    · simpa [count_eq_zero.mp noResume] using racing.queue
    · have baton := racing.baton
      grind
  · right; left
    constructor
    · exact bounded.body
    · simpa [closing, noClose] using bounded.closing
    · exact bounded.bounded
    · exact bounded.reactions
    · simpa [noResume] using bounded.queue
  · right; right
    constructor
    · exact done.bounded
    · simpa [count_eq_zero.mp noResume] using done.queue
    · simpa [closing, noClose] using done.owner

theorem invariant_settleOperation (here : Invariant state)
    (isPending : state.operation.state = .pending)
    (settled : outcome ≠ .pending) : Invariant (state.settleOperation outcome) := by
  rcases here with ⟨wired, phase⟩
  have noResume : state.operation.reactions.count .resumeOpen = 0 := by
    apply count_eq_zero.mpr
    intro member
    rcases wired.operation _ member with eq | eq <;> cases eq
  unfold State.settleOperation Deferred.settle
  rw [isPending]
  refine ⟨⟨by simp, wired.deadline, wired.cancelled, wired.race, by simp, by simp [settled]⟩, ?_⟩
  rcases phase with racing | bounded | done
  · left
    rcases racing with ⟨body, quiet, bounded, queue, baton⟩
    constructor
    · exact body
    · simp only [closing] at quiet ⊢
      grind
    · exact bounded
    · grind
    · simp only [Answers] at baton ⊢
      grind
  · right; left
    rcases bounded with ⟨body, quiet, ⟨notPending, answers⟩, reactions, queue⟩
    constructor
    · exact body
    · simp only [closing] at quiet ⊢
      grind
    · simp only [Answers] at answers ⊢
      grind
    · exact reactions
    · grind
  · right; right
    rcases done with ⟨bounded, queue, owner⟩
    constructor
    · exact bounded
    · grind
    · simp only [closing] at owner ⊢
      grind

/-- The queue has as many closers, and as many continuations of the opener. -/
structure SameQueue (before after : List Job) : Prop where
  close : after.count .close = before.count .close
  resume : after.count .resumeOpen = before.count .resumeOpen

section

variable (same : SameQueue state.queue queue)

include same

theorem SameQueue.bounded (bounded : Bounded state) (race : Deferred OpenError Job) :
    Bounded { state with race, queue } where
  body := bounded.body
  closing := by
    have quiet := bounded.closing
    simp only [closing, same.close] at quiet ⊢
    exact quiet
  bounded := bounded.bounded
  reactions := bounded.reactions
  queue := same.resume.trans bounded.queue

theorem SameQueue.done
    (done : Done state) (race : Deferred OpenError Job) : Done { state with race, queue } where
  bounded := done.bounded
  queue := by
    rw [← count_eq_zero]
    exact same.resume.trans (count_eq_zero.mpr done.queue)
  owner := by
    have owner := done.owner
    simp only [closing, same.close] at owner ⊢
    exact owner

theorem SameQueue.racing (racing : Racing state) {race : Deferred OpenError Job}
    (baton : (race = .waiting [.resumeBounded] ∧
        if state.operation.state = .pending then .raceOperation ∈ state.operation.reactions
        else .raceOperation ∈ queue) ∨
      (race.state ≠ .pending ∧ Answers race.state state.operation.state ∧
        .resumeBounded ∈ queue)) : Racing { state with race, queue } where
  body := racing.body
  closing := by
    have quiet := racing.closing
    simp only [BoundedOpen.closing, same.close] at quiet ⊢
    exact quiet
  bounded := racing.bounded
  queue := by
    rw [← count_eq_zero]
    exact same.resume.trans (count_eq_zero.mpr racing.queue)
  baton := baton

end

section

variable (here : Invariant state)

include here

/-- A job that leads to the end of the race is run. -/
theorem invariant_settleRace (queued : state.queue = job :: rest)
    (leads : job = .raceOperation ∨ job = .raceDeadline ∨ job = .raceCancelled)
    (settled : outcome ≠ .pending) (answers : Answers outcome state.operation.state) :
    Invariant ({ state with queue := rest }.settleRace outcome) := by
  rcases here with ⟨wired, phase⟩
  have raceJobs := wired.race
  have ran := wired.queue
  have noClose : state.race.reactions.count .close = 0 := by
    apply count_eq_zero.mpr
    intro member
    cases raceJobs _ member
  have noResume : state.race.reactions.count .resumeOpen = 0 := by
    apply count_eq_zero.mpr
    intro member
    cases raceJobs _ member
  unfold State.settleRace
  by_cases isPending : state.race.state = .pending
  · rw [settle_of_pending isPending]
    have same : SameQueue state.queue (rest ++ state.race.reactions) := by
      constructor <;> grind
    refine ⟨⟨wired.operation, wired.deadline, wired.cancelled, by simp, wired.settled, ?_⟩, ?_⟩
    · grind
    rcases phase with racing | bounded | done
    · rcases racing.baton with ⟨waits, _⟩ | ⟨notPending, _⟩
      · refine .inl (same.racing racing (.inr ⟨settled, answers, ?_⟩))
        simp [waits, waiting]
      · exact absurd isPending notPending
    · exact .inr (.inl (same.bounded bounded _))
    · exact .inr (.inr (same.done done _))
  · rw [settle_of_settled isPending]
    have same : SameQueue state.queue (rest ++ []) := by
      constructor <;> grind
    refine ⟨⟨wired.operation, wired.deadline, wired.cancelled, wired.race, wired.settled, ?_⟩, ?_⟩
    · grind
    rcases phase with racing | bounded | done
    · rcases racing.baton with ⟨waits, _⟩ | ⟨notPending, answered, resumes⟩
      · rw [waits] at isPending
        exact absurd rfl isPending
      · refine .inl (same.racing racing (.inr ⟨notPending, answered, ?_⟩))
        grind
    · exact .inr (.inl (same.bounded bounded _))
    · exact .inr (.inr (same.done done _))

/-- `#awaitBounded` comes to its end. -/
theorem invariant_settleBounded
    (queued : state.queue = .resumeBounded :: rest) (settled : outcome ≠ .pending)
    (answers : state.bounded.state = .pending → Answers outcome state.operation.state) :
    Invariant ({ state with queue := rest }.settleBounded outcome) := by
  rcases here with ⟨wired, phase⟩
  have ran := wired.queue
  unfold State.settleBounded
  by_cases isPending : state.bounded.state = .pending
  · rw [settle_of_pending isPending]
    rcases phase with racing | bounded | done
    · have reactions : state.bounded.reactions = [.resumeOpen] := by rw [racing.bounded]; rfl
      have quiet := racing.closing
      have resumes := racing.queue
      simp only [closing] at quiet
      refine ⟨⟨wired.operation, wired.deadline, wired.cancelled, wired.race, wired.settled, ?_⟩,
        .inr (.inl ⟨racing.body, ?_, ⟨settled, answers isPending⟩, rfl, ?_⟩)⟩
      · grind
      · simp only [closing]
        grind
      · grind
    · exact absurd isPending bounded.bounded.1
    · exact absurd isPending done.bounded
  · rw [settle_of_settled isPending]
    have same : SameQueue state.queue (rest ++ []) := by
      constructor <;> grind
    refine ⟨⟨wired.operation, wired.deadline, wired.cancelled, wired.race, wired.settled, ?_⟩, ?_⟩
    · grind
    rcases phase with racing | bounded | done
    · rw [racing.bounded] at isPending
      exact absurd rfl isPending
    · exact .inr (.inl { same.bounded bounded state.race with })
    · exact .inr (.inr { same.done done state.race with })

/-- The opener comes to its end. -/
theorem invariant_afterBounded (queued : state.queue = .resumeOpen :: rest)
    : Invariant ({ state with queue := rest }.afterBounded) := by
  rcases here with ⟨wired, phase⟩
  have ran := wired.queue
  have operationJobs := wired.operation
  have settledJobs := wired.settled
  rcases phase with racing | bounded | done
  · exact absurd (queued ▸ mem_cons_self) racing.queue
  · rcases bounded with ⟨body, quiet, ⟨notPending, answers⟩, reactions, once⟩
    have gone : .resumeOpen ∉ rest := by grind
    simp only [closing] at quiet
    unfold State.afterBounded
    dsimp only
    split
    · next fulfilled =>
        refine ⟨⟨wired.operation, wired.deadline, wired.cancelled, wired.race, wired.settled, ?_⟩,
          .inr (.inr ⟨notPending, gone, .inl ⟨rfl, ?_, ?_⟩⟩)⟩
        · grind
        · simp only [Answers] at answers
          grind
        · simp only [closing]
          grind
    · next facade =>
        by_cases isPending : state.operation.state = .pending
        · rw [attach_of_pending isPending]
          refine ⟨⟨?_, wired.deadline, wired.cancelled, wired.race, ?_, ?_⟩,
            .inr (.inr ⟨notPending, ?_, .inr (.inl ⟨rfl, ?_, ?_⟩)⟩)⟩
          · grind
          · exact fun settled => absurd isPending settled
          · grind
          · grind
          · simp only [closing]
            grind
          · grind
        · rw [attach_of_settled isPending]
          refine ⟨⟨wired.operation, wired.deadline, wired.cancelled, wired.race, wired.settled, ?_⟩,
            .inr (.inr ⟨notPending, ?_, .inr (.inl ⟨rfl, ?_, ?_⟩)⟩)⟩
          · grind
          · grind
          · simp only [closing]
            grind
          · grind
    · next platform =>
        refine ⟨⟨wired.operation, wired.deadline, wired.cancelled, wired.race, wired.settled, ?_⟩,
          .inr (.inr ⟨notPending, gone, .inr (.inr ⟨rfl, ?_, .platform, ?_⟩)⟩)⟩
        · grind
        · exact (Nat.add_eq_zero_iff.mp quiet).2
        · simp only [Answers] at answers
          grind
    · next isPending => exact absurd isPending notPending
  · exact absurd (queued ▸ mem_cons_self) done.queue

/-- The handler behind a loss is run. -/
theorem invariant_close (queued : state.queue = .close :: rest) (clockRefuses : Bool) :
    Invariant ({ state with queue := rest }.runJob clockRefuses .close) := by
  rcases here with ⟨wired, phase⟩
  have ran := wired.queue
  have settledJobs := wired.settled
  have isSettled : state.operation.state ≠ .pending :=
    wired.queue .close (queued ▸ mem_cons_self) (.inr rfl)
  rcases phase with racing | bounded | done
  · have quiet := racing.closing
    simp only [closing] at quiet
    grind
  · have quiet := bounded.closing
    simp only [closing] at quiet
    grind
  · rcases done with ⟨notPending, gone, owner⟩
    simp only [closing] at owner
    unfold State.runJob
    dsimp only
    split_ifs with fulfilled
    · refine ⟨⟨wired.operation, wired.deadline, wired.cancelled, wired.race, wired.settled, ?_⟩,
        .inr (.inr ⟨notPending, ?_, ?_⟩)⟩
      · grind
      · grind
      · simp only [closing]
        grind
    · have isRejected : ∃ error, state.operation.state = .rejected error := by
        cases operation : state.operation.state with
        | pending => exact absurd operation isSettled
        | fulfilled => exact absurd operation fulfilled
        | rejected error => exact ⟨error, rfl⟩
      refine ⟨⟨wired.operation, wired.deadline, wired.cancelled, wired.race, wired.settled, ?_⟩,
        .inr (.inr ⟨notPending, ?_, .inr (.inr ⟨?_, ?_, isRejected⟩)⟩)⟩
      · grind
      · grind
      · grind
      · grind

theorem invariant_abort : Invariant state.abort := by
  have wired := here.1
  have unheard : Invariant { state with isAborted := true, queue := state.queue ++ [] } :=
    invariant_of_lost here true (forall_mem_nil _) wired.deadline wired.cancelled
  unfold State.abort State.settleCancelled
  dsimp only
  split_ifs
  · by_cases isPending : state.cancelled.state = .pending
    · rw [settle_of_pending isPending]
      exact invariant_of_lost here true (fun job member => .inr (wired.cancelled job member))
        wired.deadline (forall_mem_nil _)
    · rw [settle_of_settled isPending]
      exact unheard
  · rwa [List.append_nil] at unheard

theorem invariant_settleDeadline : Invariant state.settleDeadline := by
  have wired := here.1
  unfold State.settleDeadline
  by_cases isPending : state.deadline.state = .pending
  · rw [settle_of_pending isPending]
    exact invariant_of_lost here _ (fun job member => .inl (wired.deadline job member))
      (forall_mem_nil _) wired.cancelled
  · rw [settle_of_settled isPending]
    exact invariant_of_lost here _ (forall_mem_nil _) wired.deadline wired.cancelled

/-- The continuation of `#awaitBounded` is run. -/
theorem invariant_afterRace (queued : state.queue = .resumeBounded :: rest)
    (clockRefuses : Bool) : Invariant ({ state with queue := rest }.afterRace clockRefuses) := by
  have answers : state.bounded.state = .pending → state.race.state ≠ .pending →
      Answers state.race.state state.operation.state := by
    intro isPending settled
    rcases here.2 with racing | bounded | done
    · rcases racing.baton with ⟨waits, _⟩ | ⟨_, answered, _⟩
      · rw [waits] at settled
        exact absurd rfl settled
      · exact answered
    · exact absurd isPending bounded.bounded.1
    · exact absurd isPending done.bounded
  unfold State.afterRace
  dsimp only
  split
  · next fulfilled =>
      rw [fulfilled] at answers
      split_ifs
      · exact invariant_settleBounded here queued (by simp) fun _ => .inr rfl
      · exact invariant_settleBounded here queued (by simp) fun isPending =>
          answers isPending (by simp)
  · next error rejected =>
      rw [rejected] at answers
      exact invariant_settleBounded here queued (by simp) fun isPending =>
        answers isPending (by simp)
  · next isPending =>
      rcases here with ⟨wired, phase⟩
      have ran := wired.queue
      have same : SameQueue state.queue rest := by
        constructor <;> grind
      refine ⟨⟨wired.operation, wired.deadline, wired.cancelled, wired.race, wired.settled, ?_⟩, ?_⟩
      · grind
      rcases phase with racing | bounded | done
      · rcases racing.baton with ⟨waits, baton⟩ | ⟨notPending, _⟩
        · refine .inl (same.racing racing (.inl ⟨waits, ?_⟩))
          grind
        · exact absurd isPending notPending
      · exact .inr (.inl (same.bounded bounded _))
      · exact .inr (.inr (same.done done _))

theorem invariant_runJob (queued : state.queue = job :: rest)
    (clockRefuses : Bool) : Invariant ({ state with queue := rest }.runJob clockRefuses job) := by
  cases job with
  | raceOperation =>
    have settled : state.operation.state ≠ .pending :=
      here.1.queue .raceOperation (queued ▸ mem_cons_self) (.inl rfl)
    exact invariant_settleRace here queued (.inl rfl) settled (.inl rfl)
  | raceDeadline =>
    exact invariant_settleRace here queued (.inr (.inl rfl)) (by simp) (.inr rfl)
  | raceCancelled =>
    exact invariant_settleRace here queued (.inr (.inr rfl)) (by simp) (.inr rfl)
  | resumeBounded => exact invariant_afterRace here queued clockRefuses
  | resumeOpen => exact invariant_afterBounded here queued
  | close => exact invariant_close here queued clockRefuses

theorem invariant_of_step {event : Event}
    (steps : step state event = some next) : Invariant next := by
  unfold step at steps
  cases event with
  | operationFulfils =>
    dsimp only at steps
    split_ifs at steps with isPending
    cases steps
    exact invariant_settleOperation here isPending (by simp)
  | operationRejects error =>
    dsimp only at steps
    split_ifs at steps with isPending
    cases steps
    exact invariant_settleOperation here isPending (by simp)
  | abort =>
    dsimp only at steps
    split_ifs at steps
    cases steps
    exact invariant_abort here
  | deadlineTimer =>
    dsimp only at steps
    split_ifs at steps
    cases steps
    exact invariant_settleDeadline here
  | job clockRefuses =>
    dsimp only at steps
    split at steps
    · cases steps
    · next job rest queued =>
        cases steps
        exact invariant_runJob here queued clockRefuses

theorem invariant_of_run
    (runs : Exploration.run step state events = some next) : Invariant next := by
  induction events generalizing state with
  | nil =>
    cases runs
    exact here
  | cons event rest ih =>
    rcases Exploration.run_cons.mp runs with ⟨middle, first, later⟩
    exact ih (invariant_of_step here first) later

end

/-! ## The owner -/

/-- The operation is settled, and no job is left. -/
def Ended (state : State) : Prop := state.operation.state ≠ .pending ∧ state.queue = []

/-- A handle was returned and is open, or it was closed once and the call failed. -/
def OneOwner (state : State) : Prop :=
  (state.body = .returned ∧ state.operation.state = .fulfilled ∧ state.closes = 0) ∨
  (state.body = .thrown ∧ state.closes = if state.operation.state = .fulfilled then 1 else 0)

/-- Never closed twice, and never closed when it is returned. -/
def Safe (state : State) : Prop :=
  state.closes ≤ 1 ∧ (state.body = .returned → state.closes = 0)

theorem Invariant.safe (here : Invariant state) : Safe state := by
  unfold Safe
  rcases here with ⟨_, racing | bounded | done⟩
  · have quiet := racing.closing
    simp only [closing] at quiet
    omega
  · have quiet := bounded.closing
    simp only [closing] at quiet
    omega
  · have owner := done.owner
    simp only [closing] at owner
    grind

theorem Invariant.oneOwner (here : Invariant state) (ended : Ended state) : OneOwner state := by
  rcases here with ⟨wired, racing | bounded | done⟩
  · rcases racing.baton with ⟨_, waits⟩ | ⟨_, _, waits⟩
    · rw [if_neg ended.1, ended.2] at waits
      cases waits
    · rw [ended.2] at waits
      cases waits
  · have waits := bounded.queue
    rw [ended.2] at waits
    cases waits
  · have owner := done.owner
    have jobs := wired.settled ended.1
    simp only [closing, jobs, ended.2, List.count_nil] at owner
    unfold OneOwner
    grind

/-- Whatever happens in whatever order, the handle of a call has one owner in the end. -/
theorem oneOwner_of_run {start : State} (starts : Starts start)
    (runs : Exploration.run step start events = some state) :
    Safe state ∧ (Ended state → OneOwner state) :=
  have here := invariant_of_run (invariant_of_starts starts) runs
  ⟨here.safe, here.oneOwner⟩

end AgentContextLint.BoundedOpen
