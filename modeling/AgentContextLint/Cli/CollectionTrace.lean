import AgentContextLint.Cli.ObservedRuns

/-!
# The trace of a collection

The executor answers the requests of a collection one after the other. What each answer says about
the world at which instant is put together to a `Trace`, and `Trace.Describes` says how the trace
of a completed collection is ordered and what its metadata holds.
-/

namespace AgentContextLint.GitObservation

open Utf16 Utf8 StatefulRuns

open GitMetadataCollection

variable {host : Host} {start finish : Session} {response : GitMetadataResponse}
  {mergeBase : Text} {baseReference : Text}

/-- Time has passed, and the worktree was read in these intervals. -/
structure Logs (intervals : List (Nat × Nat)) (start finish : Session) : Prop where
  order : start.instant ≤ finish.instant
  readings : finish.readings = start.readings ++ intervals

theorem Later.logs (later : Later start finish) : Logs [] start finish where
  order := later.order
  readings := later.readings.trans (List.append_nil _).symm

theorem Logs.trans {intervals others : List (Nat × Nat)} {middle : Session}
    (one : Logs intervals start middle) (two : Logs others middle finish) :
    Logs (intervals ++ others) start finish where
  order := one.order.trans two.order
  readings := by
    rw [two.readings, one.readings, List.append_assoc]

theorem readWorktreeSnapshot_logs {worktree : WorktreeSnapshot}
    (ran : readWorktreeSnapshot host start = .ok (worktree, finish)) :
    ∃ files, WorktreeAt host ⟨(start.instant, finish.instant), worktree, files⟩ ∧
      Logs [(start.instant, finish.instant)] start finish := by
  rcases readWorktreeSnapshot_run ran with ⟨⟨files, worktreeAt⟩, _, readings⟩
  exact ⟨files, worktreeAt, worktreeAt.order.le, readings⟩

/-! ## References -/

def HeadAt (host : Host) (instant : Nat) (commit : Text) : Prop :=
  ∃ reference, (host.history instant).references headName = some reference ∧
    (host.git.peel reference).exitCode = 0 ∧
    oneSha (host.git.peel reference).stdout = some commit

variable {requested reference : Text}

theorem resolveReference_later
    (ran : resolveReference host requested start = .ok (reference, finish)) :
    Later start finish := by
  unfold resolveReference at ran
  split_ifs at ran
  · rcases run_pure.mp ran with ⟨_, rfl⟩
    exact later_rfl start
  · rcases run_bind.mp ran with ⟨resolved, between, observed, ran⟩
    rcases observe_run observed with ⟨_, rfl⟩
    rcases required_run.mp ran with ⟨_, rfl⟩
    exact later_next start

theorem headName_ne_sha (format : GitObjectFormat) :
    ¬ (headName.length = shaLength format ∧ headName.all Sha256.isHexDigit = true) := by
  cases format <;> decide

theorem resolveReference_head (ran : resolveReference host headName start = .ok (reference, finish)) :
    (host.history start.instant).references headName = some reference ∧ finish = start.next := by
  unfold resolveReference at ran
  rw [if_neg (headName_ne_sha _)] at ran
  rcases run_bind.mp ran with ⟨resolved, between, observed, ran⟩
  rcases observe_run observed with ⟨rfl, rfl⟩
  rcases required_run.mp ran with ⟨found, rfl⟩
  exact ⟨found, rfl⟩

theorem resolve_run {snapshot : Option WorktreeSnapshot}
    (ran : resolve host requested snapshot start = .ok (response, finish))
    (succeeded : response.exitCode = 0) :
    ∃ reference between after, resolveReference host requested start = .ok (reference, between) ∧
      response = host.git.peel reference ∧ postflight host snapshot between = .ok ((), after) ∧
      Later after finish := by
  rcases run_bind.mp ran with ⟨reference, between, resolved, ran⟩
  split_ifs at ran with failed
  · rcases run_pure.mp ran with ⟨rfl, _⟩
    exact absurd succeeded failed
  · rcases run_bind.mp ran with ⟨_, after, postflown, ran⟩
    rcases run_bind.mp ran with ⟨finalReference, last, again, ran⟩
    rcases run_stopIf_bind.mp ran with ⟨_, ran⟩
    rcases run_pure.mp ran with ⟨rfl, rfl⟩
    exact ⟨reference, between, after, resolved, rfl, postflown, resolveReference_later again⟩

theorem resolveBase_logs
    (ran : executor host (.resolveBase baseReference) start = .ok (response, finish))
    (succeeded : response.exitCode = 0) : Logs [] start finish := by
  rcases resolve_run ran succeeded with ⟨_, between, after, resolved, _, postflown, later⟩
  rcases run_pure.mp postflown with ⟨_, rfl⟩
  exact ((resolveReference_later resolved).trans later).logs

/-- Without a snapshot, only HEAD is observed. -/
theorem resolveHead_run (none : start.pendingFinalSnapshot = none)
    (ran : executor host .resolveHead start = .ok (response, finish))
    (succeeded : response.exitCode = 0) :
    (∃ reference, (host.history start.instant).references headName = some reference ∧
      response = host.git.peel reference) ∧ Logs [] start finish := by
  rcases run_bind.mp ran with ⟨_, _, got, ran⟩
  cases got
  rcases run_bind.mp ran with ⟨_, _, cleared, ran⟩
  cases cleared
  dsimp only at ran
  rw [none] at ran
  rcases resolve_run ran succeeded with ⟨reference, between, after, resolved, rfl, flown, later⟩
  rcases run_pure.mp flown with ⟨_, rfl⟩
  rcases resolveReference_head resolved with ⟨found, rfl⟩
  refine ⟨⟨reference, found, rfl⟩, ?_, ?_⟩
  · exact (Nat.le_succ _).trans later.order
  · exact later.readings.trans (List.append_nil _).symm

/-- With a snapshot, the worktree is read once more. -/
theorem resolveHead_postflight {snapshot : WorktreeSnapshot}
    (some : start.pendingFinalSnapshot = some snapshot)
    (ran : executor host .resolveHead start = .ok (response, finish))
    (succeeded : response.exitCode = 0) :
    (∃ reference, (host.history start.instant).references headName = .some reference ∧
      response = host.git.peel reference) ∧
      ∃ interval, start.instant < interval.1 ∧ interval.1 < interval.2 ∧
        interval.2 ≤ finish.instant ∧ Logs [interval] start finish ∧
        finish.pendingFinalSnapshot = none := by
  rcases run_bind.mp ran with ⟨_, _, got, ran⟩
  cases got
  rcases run_bind.mp ran with ⟨_, _, cleared, ran⟩
  cases cleared
  dsimp only at ran
  rw [some] at ran
  rcases resolve_run ran succeeded with ⟨reference, between, after, resolved, rfl, flown, later⟩
  rcases resolveReference_head resolved with ⟨found, rfl⟩
  rcases run_bind.mp flown with ⟨worktree, read, snapshotRead, flown⟩
  rcases run_stopIf flown with ⟨_, rfl⟩
  rcases readWorktreeSnapshot_run snapshotRead with ⟨⟨files, worktreeAt⟩, pending, readings⟩
  refine ⟨⟨reference, found, rfl⟩, _, Nat.lt_succ_self _, worktreeAt.order, later.order, ?_, ?_⟩
  · exact ⟨(Nat.le_succ _).trans (worktreeAt.order.le.trans later.order),
      later.readings.trans readings⟩
  · exact later.pending.trans pending

/-! ## The other requests -/

/-- The listing of Git at an instant, and behind it a reading of the worktree. -/
structure DiffAt (host : Host) (mergeBase : Text) (instant : Nat)
    (reading : WorktreeReading) (output : List UInt8) : Prop where
  succeeded : (host.git.diffIndex mergeBase (host.history instant).index).exitCode = 0
  order : instant < reading.interval.1
  worktree : WorktreeAt host reading
  merged : GitMetadataExecutor.mergeWorktreeChanges
    (host.git.diffIndex mergeBase (host.history instant).index).stdout
    reading.snapshot.modifiedPaths host.maximumOutputBytes = .ok output

theorem diff_run (ran : executor host (.diff mergeBase) start = .ok (response, finish))
    (succeeded : response.exitCode = 0) :
    ∃ instant reading, DiffAt host mergeBase instant reading response.stdout ∧
      start.instant ≤ instant ∧ reading.interval.2 = finish.instant ∧
      Logs [reading.interval] start finish := by
  rcases run_bind.mp ran with ⟨_, _, cleared, ran⟩
  cases cleared
  rcases run_bind.mp ran with ⟨before, _, indexed, ran⟩
  rcases readStableIndex_run indexed with ⟨_, rfl⟩
  rcases run_bind.mp ran with ⟨result, _, observed, ran⟩
  rcases observe_run observed with ⟨rfl, rfl⟩
  dsimp only at ran
  split_ifs at ran with failed
  · rcases run_pure.mp ran with ⟨rfl, _⟩
    exact absurd succeeded failed
  · rcases run_bind.mp ran with ⟨after, _, indexed, ran⟩
    rcases readStableIndex_run indexed with ⟨_, rfl⟩
    rcases run_stopIf_bind.mp ran with ⟨_, ran⟩
    rcases run_bind.mp ran with ⟨worktree, last, read, ran⟩
    rcases run_stopIf_bind.mp ran with ⟨_, ran⟩
    rcases readWorktreeSnapshot_logs read with ⟨files, worktreeAt, logs⟩
    generalize merged : GitMetadataExecutor.mergeWorktreeChanges _ _ _ = stdout at ran
    cases stdout with
    | error error => cases ran
    | ok stdout =>
      rcases run_pure.mp ran with ⟨rfl, rfl⟩
      refine ⟨_, _, ⟨of_not_not failed, ?_, worktreeAt, merged⟩, Nat.le_succ _, rfl, ?_, logs.2⟩
      · exact (Nat.lt_succ_self _).trans (Nat.lt_succ_self _)
      · exact (Nat.le_add_right _ 3).trans logs.1

theorem indexState_run (ran : executor host .indexState start = .ok (response, finish)) :
    (∃ snapshot, IndexAt host start.instant snapshot ∧ response = ⟨0, snapshot.bytes⟩) ∧
      start.instant < finish.instant ∧ Logs [] start finish := by
  rcases run_bind.mp ran with ⟨_, _, cleared, ran⟩
  cases cleared
  rcases run_bind.mp ran with ⟨index, _, indexed, ran⟩
  rcases readStableIndex_run indexed with ⟨indexAt, rfl⟩
  rcases run_stopIf_bind.mp ran with ⟨_, ran⟩
  rcases run_pure.mp ran with ⟨rfl, rfl⟩
  exact ⟨⟨index, indexAt, rfl⟩, Nat.lt_succ_self _, Nat.le_succ _, (List.append_nil _).symm⟩

theorem worktreeState_run (ran : executor host .worktreeState start = .ok (response, finish)) :
    ∃ reading, WorktreeAt host reading ∧ response = ⟨0, reading.snapshot.state⟩ ∧
      reading.interval = (start.instant, finish.instant) ∧
      finish.pendingFinalSnapshot = some reading.snapshot ∧
      Logs [reading.interval] start finish := by
  rcases run_bind.mp ran with ⟨worktree, after, read, ran⟩
  rcases readWorktreeSnapshot_logs read with ⟨files, worktreeAt, logs⟩
  rcases run_stopIf_bind.mp ran with ⟨_, ran⟩
  rcases run_bind.mp ran with ⟨_, _, pending, ran⟩
  cases pending
  rcases run_pure.mp ran with ⟨rfl, rfl⟩
  exact ⟨_, worktreeAt, rfl, rfl, rfl, logs.1, logs.2⟩

theorem mergeBases_run {baseCommit headCommit : Text}
    (ran : executor host (.mergeBases baseCommit headCommit) start = .ok (response, finish)) :
    response = host.git.mergeBases baseCommit headCommit ∧ Logs [] start finish := by
  rcases run_bind.mp ran with ⟨_, _, cleared, ran⟩
  cases cleared
  rcases run_pure.mp ran with ⟨rfl, rfl⟩
  exact ⟨rfl, le_rfl, (List.append_nil _).symm⟩

/-! ## A collection -/

theorem execute_bind_run {request : GitMetadataRequest} {α : Type} {a : α}
    {f : List UInt8 → Operation α}
    (ran : (execute (executor host) request >>= f) start = .ok (a, finish)) :
    ∃ response between, executor host request start = .ok (response, between) ∧
      response.exitCode = 0 ∧ f response.stdout between = .ok (a, finish) := by
  rcases run_bind.mp ran with ⟨output, between, executed, rest⟩
  rcases run_bind.mp executed with ⟨response, after, answered, executed⟩
  rcases run_stopIf_bind.mp executed with ⟨succeeded, executed⟩
  rcases run_pure.mp executed with ⟨rfl, rfl⟩
  exact ⟨response, after, answered, of_not_not succeeded, rest⟩

/-- What a collection has observed. -/
structure Trace where
  diffInstant : Nat
  diffReading : WorktreeReading
  diffOutput : List UInt8
  indexInstant : Nat
  index : IndexSnapshot
  reading : WorktreeReading
  lastHead : Nat
  lastInterval : Nat × Nat

/-- The observations in their order, from the start of the collection to its end. -/
structure Trace.Ordered (trace : Trace) (start finish : Nat) : Prop where
  listing : start ≤ trace.diffInstant
  index : trace.diffReading.interval.2 ≤ trace.indexInstant
  reading : trace.indexInstant < trace.reading.interval.1
  head : trace.reading.interval.2 ≤ trace.lastHead
  last : trace.lastHead < trace.lastInterval.1 ∧ trace.lastInterval.1 < trace.lastInterval.2
  finish : trace.lastInterval.2 ≤ finish

structure Trace.Describes (trace : Trace) (host : Host) (start finish : Session)
    (ready : GitChangedFileMetadataReady) : Prop where
  ordered : trace.Ordered start.instant finish.instant
  readings : finish.readings =
    start.readings ++ [trace.diffReading.interval, trace.reading.interval, trace.lastInterval]
  pending : finish.pendingFinalSnapshot = none
  firstHead : HeadAt host start.instant ready.headCommit
  mergeBase : shaLines (host.git.mergeBases ready.baseCommit ready.headCommit).stdout =
    some [ready.mergeBase]
  diff : DiffAt host ready.mergeBase trace.diffInstant trace.diffReading trace.diffOutput
  changes : ChangedFileMetadata.parseDiff trace.diffOutput = .ok ready.changes
  index : IndexAt host trace.indexInstant trace.index
  trackedPaths : ready.trackedPaths = trace.index.parsed.paths
  worktree : WorktreeAt host trace.reading
  worktreeState : ready.worktreeStateSha256 = Sha256.sha256Hex trace.reading.snapshot.state
  lastHead : HeadAt host trace.lastHead ready.headCommit

theorem oneMergeBase_eq_ok {lines : List Text}
    (one : oneMergeBase lines = .ok mergeBase) : lines = [mergeBase] := by
  unfold oneMergeBase at one
  split at one
  · cases one
  · cases one
    rfl
  · cases one

/-- A collection that completes has a trace. -/
theorem collect_run {ready : GitChangedFileMetadataReady}
    (fresh : start.pendingFinalSnapshot = none)
    (ran : collect host baseReference start = .ok (ready, finish)) :
    ∃ trace : Trace, trace.Describes host start finish ready := by
  rcases run_stopIf_bind.mp ran with ⟨_, ran⟩
  rcases execute_bind_run ran with ⟨_, s₁, headed, succeeded, ran⟩
  rcases resolveHead_run fresh headed succeeded with ⟨⟨head, found, rfl⟩, logs₁⟩
  rcases required_bind_run ran with ⟨headCommit, isHead, ran⟩
  have firstHead : HeadAt host start.instant headCommit := ⟨head, found, succeeded, isHead⟩
  rcases execute_bind_run ran with ⟨_, s₂, based, succeeded, ran⟩
  have logs₂ := logs₁.trans (resolveBase_logs based succeeded)
  rcases required_bind_run ran with ⟨baseCommit, _, ran⟩
  rcases execute_bind_run ran with ⟨_, s₃, bases, _, ran⟩
  rcases mergeBases_run bases with ⟨rfl, logs⟩
  have logs₃ := logs₂.trans logs
  rcases required_bind_run ran with ⟨mergeBases, lines, ran⟩
  rcases accepted_bind_run ran with ⟨mergeBase, one, ran⟩
  rw [oneMergeBase_eq_ok one] at lines
  rcases run_stopIf_bind.mp ran with ⟨_, ran⟩
  rcases execute_bind_run ran with ⟨_, s₄, listed, succeeded, ran⟩
  rcases diff_run listed succeeded with ⟨diffInstant, diffReading, diff, afterBases, diffEnd, logs⟩
  have logs₄ := logs₃.trans logs
  rcases accepted_bind_run ran with ⟨changes, parsed, ran⟩
  rcases execute_bind_run ran with ⟨_, s₅, indexed, _, ran⟩
  rcases indexState_run indexed with ⟨⟨index, indexAt, rfl⟩, afterIndex, logs⟩
  have logs₅ := logs₄.trans logs
  rcases required_bind_run ran with ⟨parsedIndex, isIndex, ran⟩
  cases isIndex.symm.trans indexAt.parsed
  rcases run_stopIf_bind.mp ran with ⟨_, ran⟩
  rcases execute_bind_run ran with ⟨_, s₆, worktree, _, ran⟩
  rcases worktreeState_run worktree with ⟨reading, worktreeAt, rfl, interval, pending, logs⟩
  have logs₆ := logs₅.trans logs
  rcases execute_bind_run ran with ⟨_, s₇, headed, succeeded, ran⟩
  rcases resolveHead_postflight pending headed succeeded with
    ⟨⟨lastHead, found, rfl⟩, lastInterval, afterHead, lastOrder, last, logs, cleared⟩
  have logs₇ := logs₆.trans logs
  rcases required_bind_run ran with ⟨finalHead, isFinal, ran⟩
  rcases run_stopIf_bind.mp ran with ⟨unmoved, ran⟩
  rcases run_pure.mp ran with ⟨rfl, rfl⟩
  have same : finalHead = headCommit := of_not_not unmoved
  rw [same] at isFinal
  refine ⟨⟨diffInstant, diffReading, _, s₄.instant, index, reading, s₆.instant, lastInterval⟩,
    ⟨logs₃.order.trans afterBases, diffEnd.le, ?_, ?_, ⟨afterHead, lastOrder⟩, last⟩,
    logs₇.readings, cleared, firstHead, lines, diff, parsed, indexAt, rfl, worktreeAt, rfl,
    ⟨lastHead, found, succeeded, isFinal⟩⟩
  · exact afterIndex.trans_eq (congrArg Prod.fst interval).symm
  · exact (congrArg Prod.snd interval).le

end AgentContextLint.GitObservation
