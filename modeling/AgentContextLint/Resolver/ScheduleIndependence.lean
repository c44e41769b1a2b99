import AgentContextLint.Resolver.BoundedResolution

/-!
# Resolution does not depend on the schedule

The result of `resolveEffectiveContextsBounded` against the order of its task list, the number of
workers and the order in which the executors settle.
-/

namespace AgentContextLint.BoundedResolution

open Utf16 Utf8 Metered Sorting WorkerPool List
open Option (bind_some map_eq_bind)

variable (maximumConcurrency : Nat)

/-! ## Accepted task lists -/

variable {label : String} {text : Text}

theorem scanText_wellFormed (ok : scanText label text = .ok ()) : wellFormed text = true := by
  induction text using scanText.induct with
  | case1 => rfl
  | case2 unit surrogate =>
    rw [scanText, if_pos surrogate] at ok
    cases ok
  | case3 unit plain =>
    exact wellFormed_cons (by simpa using plain) []
  | case4 unit next rest high low ih =>
    rw [scanText, if_pos high, if_pos low] at ok
    rw [wellFormed, if_pos high, low, Bool.true_and]
    exact ih ok
  | case5 unit next rest high notLow =>
    rw [scanText, if_pos high, if_neg notLow] at ok
    cases ok
  | case6 unit next rest notHigh low =>
    rw [scanText, if_neg notHigh, if_pos low] at ok
    cases ok
  | case7 unit next rest notHigh notLow control =>
    rw [scanText, if_neg notHigh, if_neg notLow, if_pos control] at ok
    cases ok
  | case8 unit next rest notHigh notLow plain ih =>
    rw [scanText, if_neg notHigh, if_neg notLow, if_neg plain] at ok
    rw [wellFormed_cons (isSurrogate_eq_false_iff.mpr ⟨by simpa using notHigh, by simpa using notLow⟩)]
    exact ih ok

theorem wellFormedText_eq_ok {maximumBytes : Nat} :
    wellFormedText text maximumBytes label = .ok () ↔
      scanText label text = .ok () ∧ text ≠ [] ∧ byteLength text ≤ maximumBytes := by
  rw [wellFormedText, check_bind_eq_ok, check_bind_eq_ok, failIf_eq_ok, failIf_eq_ok, Nat.not_lt]

variable (task : EffectiveContextResolutionTask)

/-- The checks of an issued task were made before, but for another bound of its identifier. -/
theorem normalizeDescriptor_issued (maximumTaskIdBytes : Nat) :
    normalizeDescriptor task.toEffectiveContextResolutionTaskDescriptor maximumTaskIdBytes =
      if maximumTaskIdBytes < byteLength task.id then
        fail .resourceLimit "resolution task id exceeds its byte limit"
      else .ok task.toEffectiveContextResolutionTaskDescriptor := by
  obtain ⟨⟨version, id, rest⟩, _⟩ := normalizeDescriptor_eq_ok.mp task.issued
  obtain ⟨scanned, nonempty, _⟩ := wellFormedText_eq_ok.mp id
  split_ifs with long
  · have refused : wellFormedText task.id maximumTaskIdBytes "resolution task id" =
        fail .resourceLimit "resolution task id exceeds its byte limit" := by
      rw [wellFormedText, scanned, ok_bind, failIf, if_neg nonempty, ok_bind, failIf, if_pos long]
      rfl
    rw [normalizeDescriptor, version, ok_bind, refused]
    rfl
  · have short := wellFormedText_eq_ok.mpr ⟨scanned, nonempty, Nat.not_lt.mp long⟩
    exact normalizeDescriptor_eq_ok.mpr ⟨⟨version, short, rest⟩, rfl⟩

theorem wellFormed_id : wellFormed task.id = true := by
  obtain ⟨⟨_, id, _⟩, _⟩ := normalizeDescriptor_eq_ok.mp task.issued
  exact scanText_wellFormed (wellFormedText_eq_ok.mp id).1

def tasksOf (value : List TaskCandidate) : List EffectiveContextResolutionTask :=
  value.filterMap fun
    | .task task => some task
    | .foreign => none

def taskKeys (tasks : List EffectiveContextResolutionTask) : List TaskRelationshipKey :=
  tasks.map fun task => taskRelationshipKey task.toEffectiveContextResolutionTaskDescriptor

/-- What is asked of the tasks of a list. -/
structure AcceptedTasks (limits : BoundedResolutionLimits)
    (tasks : List EffectiveContextResolutionTask) : Prop where
  short : ∀ task ∈ tasks, byteLength task.id ≤ limits.maximumTaskIdBytes
  ids : (tasks.map (·.id)).Nodup
  relationships : (taskKeys tasks).Nodup

variable {limits : BoundedResolutionLimits} {tasks : List EffectiveContextResolutionTask}
  {value : List TaskCandidate} {task : EffectiveContextResolutionTask}

theorem AcceptedTasks.of_perm {others : List EffectiveContextResolutionTask}
    (accepted : AcceptedTasks limits tasks) (perm : tasks.Perm others) :
    AcceptedTasks limits others where
  short task member := accepted.short task (perm.mem_iff.mpr member)
  ids := (perm.map _).nodup_iff.mp accepted.ids
  relationships := (perm.map _).nodup_iff.mp accepted.relationships

variable {read : List EffectiveContextResolutionTask}

theorem admitTask_eq_ok {next : List EffectiveContextResolutionTask} :
    admitTask limits read (.task task) = .ok next ↔
      byteLength task.id ≤ limits.maximumTaskIdBytes ∧ task.id ∉ read.map (·.id) ∧
        taskRelationshipKey task.toEffectiveContextResolutionTaskDescriptor ∉ taskKeys read ∧
        next = read ++ [task] := by
  rw [admitTask, normalizeDescriptor_issued]
  split_ifs with long
  · exact ⟨fun eq => (by cases eq), fun all => absurd long (Nat.not_lt.mpr all.1)⟩
  · rw [ok_bind, check_bind_eq_ok, check_bind_eq_ok, failIf_eq_ok, failIf_eq_ok]
    simp [pure, Except.pure, eq_comm, Nat.not_lt.mp long, taskKeys]

theorem acceptedTasks_concat : AcceptedTasks limits (tasks ++ [task]) ↔ AcceptedTasks limits tasks ∧
      byteLength task.id ≤ limits.maximumTaskIdBytes ∧ task.id ∉ tasks.map (·.id) ∧
        taskRelationshipKey task.toEffectiveContextResolutionTaskDescriptor ∉ taskKeys tasks := by
  have concat {β : Type} (l : List β) (b : β) : (l ++ [b]).Nodup ↔ l.Nodup ∧ b ∉ l := by
    rw [nodup_append_comm, singleton_append, nodup_cons, and_comm]
  constructor
  · rintro ⟨short, ids, relationships⟩
    rw [map_append, map_singleton, concat] at ids
    rw [taskKeys, map_append, map_singleton, concat] at relationships
    exact ⟨⟨fun task member => short task (mem_append_left _ member), ids.1, relationships.1⟩,
      short task (mem_append_right _ mem_cons_self), ids.2, relationships.2⟩
  · rintro ⟨⟨short, ids, relationships⟩, fits, newId, newRelationship⟩
    refine ⟨fun other member => ?_, ?_, ?_⟩
    · rcases mem_append.mp member with old | new
      · exact short other old
      · rw [mem_singleton.mp new]
        exact fits
    · rw [map_append, map_singleton, concat]
      exact ⟨ids, newId⟩
    · rw [taskKeys, map_append, map_singleton, concat]
      exact ⟨relationships, newRelationship⟩

/-- The fold of `normalizeTasks` keeps the tasks, and every prefix of them is acceptable. -/
theorem admitTasks_eq_ok : value.foldlM (admitTask limits) [] = .ok tasks ↔
      .foreign ∉ value ∧ AcceptedTasks limits (tasksOf value) ∧ tasks = tasksOf value := by
  induction value using reverseRecOn generalizing tasks with
  | nil =>
    refine ⟨fun eq => ⟨not_mem_nil, ⟨?_, nodup_nil, nodup_nil⟩, ?_⟩, fun ⟨_, _, eq⟩ => ?_⟩
    · exact fun _ member => absurd member not_mem_nil
    · exact (Except.ok.inj eq).symm
    · exact congrArg Except.ok eq.symm
  | append_singleton value candidate ih =>
    rw [foldlM_append, bind_eq_ok]
    cases candidate with
    | foreign =>
      refine ⟨fun ⟨_, _, refused⟩ => ?_, fun ⟨own, _⟩ => ?_⟩
      · cases refused
      · exact absurd (mem_append_right _ mem_cons_self) own
    | task task =>
      have split : tasksOf (value ++ [.task task]) = tasksOf value ++ [task] := filterMap_append
      have single (read : List EffectiveContextResolutionTask) :
          [TaskCandidate.task task].foldlM (admitTask limits) read = admitTask limits read (.task task) := by
        rw [foldlM_cons]
        exact bind_pure _
      simp only [ih, single, admitTask_eq_ok, split, acceptedTasks_concat, mem_append,
        mem_singleton, reduceCtorEq, or_false]
      constructor
      · rintro ⟨read, ⟨own, accepted, rfl⟩, fits, newId, newRelationship, rfl⟩
        exact ⟨own, ⟨accepted, fits, newId, newRelationship⟩, rfl⟩
      · rintro ⟨own, ⟨accepted, fits, newId, newRelationship⟩, rfl⟩
        exact ⟨_, ⟨own, accepted, rfl⟩, fits, newId, newRelationship, rfl⟩

/-- A task list is accepted for what it contains, and its sorted form is that of every permutation,
because no two tasks of it compare equal. -/
theorem normalizeTasks_eq_ok : normalizeTasks value limits = .ok tasks ↔
      value.length ≤ limits.maximumTasks ∧ .foreign ∉ value ∧
        AcceptedTasks limits (tasksOf value) ∧ tasks = sortBy compareTasks (tasksOf value) := by
  rw [normalizeTasks, check_bind_eq_ok, failIf_eq_ok, Nat.not_lt, bind_eq_ok]
  simp only [admitTasks_eq_ok, pure, Except.pure, Except.ok.injEq]
  constructor
  · rintro ⟨few, _, ⟨own, accepted, rfl⟩, rfl⟩
    exact ⟨few, own, accepted, rfl⟩
  · rintro ⟨few, own, accepted, rfl⟩
    exact ⟨few, _, ⟨own, accepted, rfl⟩, rfl⟩

/-! ## The order of the tasks -/

instance : Std.TransCmp compareTasks := by
  unfold compareTasks
  infer_instance

variable {first second : EffectiveContextResolutionTask}

/-- Tasks that compare equal have one identifier. -/
theorem id_eq_of_compareTasks (same : compareTasks first second = .eq) : first.id = second.id := by
  simp only [compareTasks, compareLex_eq_eq] at same
  exact eq_of_compareBytes (wellFormed_id first) (wellFormed_id second) same.2.2.2.2.2.2

theorem normalizeTasks_perm {value other : List TaskCandidate} (perm : value.Perm other)
    (ok : normalizeTasks value limits = .ok tasks) : normalizeTasks other limits = .ok tasks := by
  obtain ⟨few, own, accepted, rfl⟩ := normalizeTasks_eq_ok.mp ok
  have sameTasks : (tasksOf value).Perm (tasksOf other) := perm.filterMap _
  refine normalizeTasks_eq_ok.mpr ⟨?_, ?_, accepted.of_perm sameTasks, ?_⟩
  · rwa [← perm.length_eq]
  · rwa [← perm.mem_iff]
  · apply sortBy_eq_of_perm compareTasks _ sameTasks
    intro first inFirst second inSecond same
    exact inj_on_of_nodup_map accepted.ids inFirst inSecond (id_eq_of_compareTasks same)

/-! ## Refused task lists -/

/-- The codes a task list may be refused with: one for each reason to refuse it. -/
inductive Refusal (limits : BoundedResolutionLimits) (value : List TaskCandidate) :
    BoundedResolutionErrorCode → Prop
  | count : limits.maximumTasks < value.length → Refusal limits value .resourceLimit
  | foreign : value.length ≤ limits.maximumTasks → .foreign ∈ value →
    Refusal limits value .invalidInput
  | taskId {task : EffectiveContextResolutionTask} : value.length ≤ limits.maximumTasks →
    task ∈ tasksOf value → limits.maximumTaskIdBytes < byteLength task.id →
    Refusal limits value .resourceLimit
  | ids : value.length ≤ limits.maximumTasks → ¬ ((tasksOf value).map (·.id)).Nodup →
    Refusal limits value .invalidRelationship
  | relationships : value.length ≤ limits.maximumTasks → ¬ (taskKeys (tasksOf value)).Nodup →
    Refusal limits value .invalidRelationship

variable {value other : List TaskCandidate} {code : BoundedResolutionErrorCode}
  {options : Option BoundedResolutionOptions} {error : BoundedResolutionError} {i j : Nat}

theorem Refusal.of_perm (refusal : Refusal limits value code) (perm : value.Perm other) :
    Refusal limits other code := by
  have sameTasks : (tasksOf value).Perm (tasksOf other) := perm.filterMap _
  have sameLength := perm.length_eq
  cases refusal with
  | count many => exact .count (sameLength ▸ many)
  | foreign few member => exact .foreign (sameLength ▸ few) (perm.mem_iff.mp member)
  | taskId few member long => exact .taskId (sameLength ▸ few) (sameTasks.mem_iff.mp member) long
  | ids few repeated =>
    exact .ids (sameLength ▸ few) fun nodup => repeated ((sameTasks.map _).nodup_iff.mpr nodup)
  | relationships few repeated =>
    exact .relationships (sameLength ▸ few) fun nodup => repeated ((sameTasks.map _).nodup_iff.mpr nodup)

/-- A round of `normalizeTasks` that fails does so for a reason found in the list. -/
theorem admitTask_eq_error {candidate : TaskCandidate} {rest : List TaskCandidate}
    (few : value.length ≤ limits.maximumTasks) (split : value = read.map .task ++ candidate :: rest)
    (refused : admitTask limits read candidate = .error error) :
    Refusal limits value error.code ∧ error.failedTaskIndexes = [] := by
  cases candidate with
  | foreign =>
    cases refused
    exact ⟨.foreign few (by rw [split]; exact mem_append_right _ mem_cons_self), rfl⟩
  | task task =>
    have tasks : tasksOf value = read ++ task :: tasksOf rest := by
      have front : tasksOf (read.map .task) = read := by
        rw [tasksOf, filterMap_map]
        exact filterMap_some
      rw [split, tasksOf, filterMap_append]
      exact congrArg (· ++ _) front
    rw [admitTask, normalizeDescriptor_issued] at refused
    split_ifs at refused with long
    · cases refused
      exact ⟨.taskId few (by rw [tasks]; exact mem_append_right _ mem_cons_self) long, rfl⟩
    · rw [ok_bind, failIf] at refused
      split_ifs at refused with oldId
      · cases refused
        refine ⟨.ids few fun nodup => ?_, rfl⟩
        rw [tasks, map_append, map_cons] at nodup
        exact disjoint_of_nodup_append nodup oldId mem_cons_self
      · rw [ok_bind, failIf] at refused
        split_ifs at refused with oldRelationship
        · cases refused
          refine ⟨.relationships few fun nodup => ?_, rfl⟩
          rw [tasks, taskKeys, map_append, map_cons] at nodup
          exact disjoint_of_nodup_append nodup oldRelationship mem_cons_self
        · cases refused

/-- A refused list is refused for a reason of its own, but the first one met in the order of the
list. -/
theorem normalizeTasks_eq_error (refused : normalizeTasks value limits = .error error) :
    Refusal limits value error.code ∧ error.failedTaskIndexes = [] := by
  rw [normalizeTasks, failIf] at refused
  split_ifs at refused with many
  · cases refused
    exact ⟨.count many, rfl⟩
  · have few := Nat.not_lt.mp many
    have each : ∀ (rest : List TaskCandidate) (read : List EffectiveContextResolutionTask),
        value = read.map .task ++ rest → rest.foldlM (admitTask limits) read = .error error →
        Refusal limits value error.code ∧ error.failedTaskIndexes = [] := by
      intro rest
      induction rest with
      | nil => exact fun _ _ stopped => by cases stopped
      | cons candidate rest ih =>
        intro read split stopped
        rw [foldlM_cons] at stopped
        cases round : admitTask limits read candidate with
        | error first =>
          rw [round] at stopped
          cases stopped
          exact admitTask_eq_error few split round
        | ok next =>
          rw [round, ok_bind] at stopped
          cases candidate with
          | foreign => cases round
          | task task =>
            obtain ⟨_, _, _, rfl⟩ := admitTask_eq_ok.mp round
            exact ih (read ++ [task]) (by simp [split]) stopped
    rw [ok_bind] at refused
    cases folded : value.foldlM (admitTask limits) [] with
    | ok tasks =>
      rw [folded] at refused
      cases refused
    | error first =>
      rw [folded] at refused
      cases refused
      exact each value [] rfl folded

/-! ## What the workers record -/

/-- A task is absorbed as its executor settles, whether or not the executor throws. -/
theorem absorb_jobs (index : Nat) (slots : Slots) : (jobs limits tasks).absorb index slots =
      match tasks[index]? with
      | some task => settleTask limits task index slots
      | none => some slots := by
  unfold Jobs.absorb jobs
  dsimp only
  cases here : tasks[index]? with
  | none => rfl
  | some task =>
    rw [bind_some]
    split_ifs with throws
    · have failed : assess task = .error .execution := by rw [assess, throws]
      simp only [settleTask, failed]
    · rfl

/-- Two results are both kept exactly if each fits alone and they fit together. -/
theorem keep_bind_keep (slots : Slots) (i j : Nat) (first second : EffectiveContextResolution) :
    (slots.keep limits i first).bind (·.keep limits j second) =
      if byteLength first.json ≤ limits.maximumResultBytes ∧
          byteLength second.json ≤ limits.maximumResultBytes ∧
          slots.retainedResultBytes + byteLength first.json + byteLength second.json ≤
            limits.maximumTotalResultBytes then
        some ((slots.retain i first).retain j second)
      else none := by
  unfold Slots.keep
  dsimp only
  split_ifs with exceeds fits fits
  · omega
  · rfl
  · rw [bind_some, if_neg (by dsimp only [Slots.retain]; omega)]
  · rw [bind_some, if_pos (by dsimp only [Slots.retain]; omega)]

theorem keep_comm (apart : i ≠ j) (slots : Slots) (first second : EffectiveContextResolution) :
    (slots.keep limits i first).bind (·.keep limits j second) =
      (slots.keep limits j second).bind (·.keep limits i first) := by
  have same : (slots.retain i first).retain j second = (slots.retain j second).retain i first := by
    simp [Slots.retain, set_comm _ _ apart, Nat.add_right_comm]
  rw [keep_bind_keep, keep_bind_keep, same]
  congr 1
  exact propext (by omega)

/-- A failure touches nothing that the byte limits look at. -/
theorem fail_keep (slots : Slots) (i j : Nat) (failure : TaskFailure)
    (resolution : EffectiveContextResolution) :
    (slots.fail i failure).keep limits j resolution =
      (slots.keep limits j resolution).map (·.fail i failure) := by
  have retained : (slots.fail i failure).retainedResultBytes = slots.retainedResultBytes := rfl
  unfold Slots.keep
  dsimp only
  rw [retained]
  split_ifs <;> rfl

theorem settleTask_comm (apart : i ≠ j) (slots : Slots) :
    (settleTask limits first i slots).bind (settleTask limits second j) =
      (settleTask limits second j slots).bind (settleTask limits first i) := by
  unfold settleTask
  cases assess first with
  | error failure =>
    cases assess second with
    | error other => simp [Slots.fail, set_comm _ _ apart]
    | ok resolution =>
      dsimp only [bind_some]
      rw [fail_keep]
      exact map_eq_bind
  | ok resolution =>
    cases assess second with
    | error other =>
      dsimp only [bind_some]
      rw [fail_keep]
      exact map_eq_bind.symm
    | ok other => exact keep_comm apart slots resolution other

/-- What the workers record of two tasks may be exchanged. -/
theorem jobs_commute (limits : BoundedResolutionLimits)
    (tasks : List EffectiveContextResolutionTask) : (jobs limits tasks).Commute := by
  intro i j slots
  by_cases same : i = j
  · rw [same]
  · simp only [absorb_jobs]
    cases tasks[i]? with
    | none =>
      cases tasks[j]? with
      | none => rfl
      | some second => exact (Option.bind_fun_some _).symm
    | some first =>
      cases tasks[j]? with
      | none => exact Option.bind_fun_some _
      | some second => exact settleTask_comm same slots

/-- The outcome of the workers, whatever their number and the order in which they settle. -/
theorem outcome_eq {pool : Pool Slots} (reachable : PoolOf limits tasks pool) (ended : pool.Ended)
    (concurrency : limits.maximumConcurrency ≠ 0) (nonempty : tasks ≠ []) :
    pool.outcome = (jobs limits tasks).absorbAll (emptySlots tasks.length)
      (range tasks.length) := by
  apply Reachable.outcome_eq reachable _ (jobs_commute limits tasks) ended
  have := length_pos_of_ne_nil nonempty
  rw [workerCount]
  omega

/-! ## The result -/

theorem selectLimit_bounds {value : Option Int} {default hard limit : Nat}
    (ok : selectLimit value default hard = .ok limit) (positive : 0 < default) : 0 < limit := by
  unfold selectLimit at ok
  split at ok
  · cases ok
    exact positive
  · split_ifs at ok with outside
    · cases ok
    · cases ok
      omega

theorem concurrency_ne_zero
    (ok : normalizeOptions options = .ok limits) : limits.maximumConcurrency ≠ 0 := by
  cases options with
  | none =>
    cases ok
    decide
  | some options =>
    obtain ⟨maximumConcurrency, selected, rest⟩ := bind_eq_ok.mp ok
    have positive := selectLimit_bounds selected (by decide)
    simp only [bind_eq_ok, pure, Except.pure, Except.ok.injEq] at rest
    obtain ⟨_, _, _, _, _, _, _, _, _, _, _, _, rfl⟩ := rest
    exact Nat.pos_iff_ne_zero.mp positive

/-- The entries of a result are those of the tasks, in their order. -/
theorem taskIds_conclude {outcome : Option Slots} {entries : List BoundedResolutionEntry}
    (ok : conclude tasks outcome = .ok entries) : entries.map (·.taskId) = tasks.map (·.id) := by
  unfold conclude at ok
  split at ok
  · cases ok
  · dsimp only at ok
    split_ifs at ok
    have each := mapM_eq_ok.mp ok
    have ids : Forall₂ (fun (numbered : EffectiveContextResolutionTask × Nat)
        (entry : BoundedResolutionEntry) => numbered.1.id = entry.taskId) tasks.zipIdx entries := by
      refine each.imp fun numbered entry read => ?_
      unfold entryOf at read
      split at read
      · cases read
        rfl
      · cases read
    have mapped : tasks.zipIdx.map (·.1.id) = entries.map (·.taskId) := by
      rw [← forall₂_eq_eq_eq, forall₂_map_left_iff, forall₂_map_right_iff]
      exact ids
    have numbers := congrArg (map fun task => task.id) (zipIdx_map_fst 0 tasks)
    rw [map_map] at numbers
    exact mapped.symm.trans numbers

/-- The result of the accepted tasks `tasks`. -/
def resultOf (limits : BoundedResolutionLimits) (tasks : List EffectiveContextResolutionTask) :
    Except BoundedResolutionError (List BoundedResolutionEntry) :=
  conclude tasks ((jobs limits tasks).absorbAll (emptySlots tasks.length)
    (range tasks.length))

theorem resolves_eq {result : Except BoundedResolutionError (List BoundedResolutionEntry)}
    (read : normalizeOptions options = .ok limits) (run : Resolves value options result) :
    (∃ error, normalizeTasks value limits = .error error ∧ result = .error error) ∨
      ∃ tasks, normalizeTasks value limits = .ok tasks ∧ result = resultOf limits tasks := by
  cases run with
  | options invalid => cases read.symm.trans invalid
  | tasks valid refused =>
    cases read.symm.trans valid
    exact .inl ⟨_, refused, rfl⟩
  | empty valid accepted =>
    cases read.symm.trans valid
    exact .inr ⟨[], accepted, rfl⟩
  | ended valid accepted nonempty reachable ended =>
    cases read.symm.trans valid
    refine .inr ⟨_, accepted, ?_⟩
    rw [outcome_eq reachable ended (concurrency_ne_zero read) nonempty]
    rfl

/-- The number of workers does not enter into the result. -/
theorem resultOf_concurrency :
    resultOf { limits with maximumConcurrency := maximumConcurrency } tasks = resultOf limits tasks :=
  rfl

theorem normalizeTasks_concurrency :
    normalizeTasks value { limits with maximumConcurrency := maximumConcurrency } =
      normalizeTasks value limits := rfl

/-- **Schedule independence.** A task list, any permutation of it, any two numbers of workers and
any two orders of the executors have one result, and its entries are in the order of the tasks;
only a list that is refused before an executor starts may be refused for another of its reasons.
No executor is started twice, never more than `maximumConcurrency` are in flight, and whatever
order they settle in, the workers come to an end. -/
theorem resolves_schedule_independent (value other : List TaskCandidate)
    (options otherOptions : Option BoundedResolutionOptions) (limits : BoundedResolutionLimits)
    (maximumConcurrency : Nat) (perm : value.Perm other)
    (read : normalizeOptions options = .ok limits)
    (readOther : normalizeOptions otherOptions =
      .ok { limits with maximumConcurrency := maximumConcurrency }) :
    (∃ result, Resolves value options result) ∧
    (∀ result otherResult, Resolves value options result →
      Resolves other otherOptions otherResult →
      result = otherResult ∧ (∀ entries, result = .ok entries →
        entries.map (·.taskId) = (sortBy compareTasks (tasksOf value)).map (·.id)) ∨
      ∃ error otherError, result = .error error ∧ otherResult = .error otherError ∧
        normalizeTasks value limits = .error error ∧
        normalizeTasks other limits = .error otherError ∧
        Refusal limits value error.code ∧ Refusal limits value otherError.code ∧
        error.failedTaskIndexes = [] ∧ otherError.failedTaskIndexes = []) ∧
    ∀ tasks pool, normalizeTasks value limits = .ok tasks → PoolOf limits tasks pool →
      (pool.finished ++ pool.inFlight).Nodup ∧
      pool.inFlight.length ≤ limits.maximumConcurrency ∧
      ∃ last, Relation.ReflTransGen (Step (jobs limits tasks)) pool last ∧ last.Ended := by
  refine ⟨?_, fun result otherResult run otherRun => ?_, fun tasks pool _ reachable => ?_⟩
  · cases accepted : normalizeTasks value limits with
    | error error => exact ⟨_, .tasks read accepted⟩
    | ok tasks =>
      by_cases nonempty : tasks = []
      · rw [nonempty] at accepted
        exact ⟨_, .empty read accepted⟩
      · have start : PoolOf limits tasks _ := Relation.ReflTransGen.refl
        obtain ⟨last, finish, ended⟩ := Reachable.exists_ended start
        exact ⟨_, .ended read accepted nonempty (start.trans finish) ended⟩
  · rcases resolves_eq read run with ⟨error, refused, rfl⟩ | ⟨tasks, accepted, rfl⟩
    · rcases resolves_eq readOther otherRun with ⟨otherError, otherRefused, rfl⟩ | ⟨tasks, accepted, _⟩
      · rw [normalizeTasks_concurrency] at otherRefused
        obtain ⟨refusal, noIndex⟩ := normalizeTasks_eq_error refused
        obtain ⟨otherRefusal, noOtherIndex⟩ := normalizeTasks_eq_error otherRefused
        exact .inr ⟨error, otherError, rfl, rfl, refused, otherRefused, refusal,
          otherRefusal.of_perm perm.symm, noIndex, noOtherIndex⟩
      · rw [normalizeTasks_concurrency] at accepted
        cases refused.symm.trans (normalizeTasks_perm perm.symm accepted)
    · have otherAccepted := normalizeTasks_perm perm accepted
      rcases resolves_eq readOther otherRun with ⟨_, refused, _⟩ | ⟨otherTasks, again, rfl⟩
      · cases otherAccepted.symm.trans refused
      · cases otherAccepted.symm.trans again
        refine .inl ⟨(resultOf_concurrency maximumConcurrency).symm, fun entries ok => ?_⟩
        obtain ⟨_, _, _, rfl⟩ := normalizeTasks_eq_ok.mp accepted
        exact taskIds_conclude ok
  · refine ⟨reachable.nodup, ?_, Reachable.exists_ended reachable⟩
    exact (Reachable.inFlight_length_le reachable).trans (Nat.min_le_left _ _)

/-! ## Examples -/

def exampleDescriptor (id surfaceId : Text) : EffectiveContextResolutionTaskDescriptor where
  clientVersion := none
  id := id
  profileId := js "codex-cli"
  profileVersion := js "1"
  specSnapshotId := js "s"
  surfaceId := surfaceId
  targetPath := js "a"

def firstTask : EffectiveContextResolutionTask :=
  ⟨exampleDescriptor (js "b") (js "x"), .rejects, by decide +kernel⟩

def sameIdTask : EffectiveContextResolutionTask :=
  ⟨exampleDescriptor (js "b") (js "y"), .rejects, by decide +kernel⟩

def longIdTask : EffectiveContextResolutionTask :=
  ⟨exampleDescriptor (js "cc") (js "z"), .throws, by decide +kernel⟩

/-- Two tasks in either order, with the default number of workers and with one. -/
theorem resolves_schedule_independent_two :
    ∃ result, Resolves [.task firstTask, .task longIdTask] none result ∧
      ∀ otherResult, Resolves [.task longIdTask, .task firstTask]
        (some ⟨some 1, none, none, none, none, none⟩) otherResult → result = otherResult := by
  have both := resolves_schedule_independent [.task firstTask, .task longIdTask]
    [.task longIdTask, .task firstTask] none (some ⟨some 1, none, none, none, none, none⟩)
    defaultLimits 1 (.swap _ _ _) rfl rfl
  obtain ⟨result, run⟩ := both.1
  refine ⟨result, run, ?_⟩
  intro otherResult otherRun
  rcases both.2.1 result otherResult run otherRun with ⟨same, _⟩ | ⟨_, _, _, _, refused, _⟩
  · exact same
  · have tasks : AcceptedTasks defaultLimits (tasksOf [.task firstTask, .task longIdTask]) :=
      ⟨by decide +kernel, by decide +kernel, by decide +kernel⟩
    cases (normalizeTasks_eq_ok.mpr ⟨by decide, by simp, tasks, rfl⟩).symm.trans refused

/-- Two tasks of one identifier and one whose identifier is too long: which of the two faults is
reported depends on the order of the list. -/
theorem resolves_order_dependent :
    ∃ (value other : List TaskCandidate) (options : Option BoundedResolutionOptions)
      (error otherError : BoundedResolutionError), value.Perm other ∧
      Resolves value options (.error error) ∧ Resolves other options (.error otherError) ∧
      error.code ≠ otherError.code := by
  refine ⟨[.task longIdTask, .task firstTask, .task sameIdTask],
    [.task firstTask, .task sameIdTask, .task longIdTask],
    some ⟨none, none, none, some 1, none, none⟩,
    ⟨.resourceLimit, "resolution task id exceeds its byte limit", []⟩,
    ⟨.invalidRelationship, "resolution task ids must be unique", []⟩, ?_, ?_, ?_, by decide⟩
  · exact @List.perm_append_comm TaskCandidate [.task longIdTask] [.task firstTask, .task sameIdTask]
  · exact .tasks rfl (eq_error_of_map (f := fun _ => ()) (by decide +kernel))
  · exact .tasks rfl (eq_error_of_map (f := fun _ => ()) (by decide +kernel))

end AgentContextLint.BoundedResolution
