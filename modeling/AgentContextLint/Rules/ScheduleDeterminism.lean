import AgentContextLint.Rules.RuleScheduler
import AgentContextLint.Syntax.SuppressionPartition

/-!
# Schedules do not show

Every run of the scheduler, whatever its concurrency, its seed and the order in which the families
of a level complete, has the result of completing the families in the order of the levels.

* `levelsRun_eq_ok`: the levels never fail once the families are admitted, and collect the
  executions of all of them.
-/

namespace AgentContextLint.RuleScheduler

open Utf16 Utf8 Metered Sorting WorkerPool DiagnosticValidation List
open Suppression (acceptingChecks lineDirective)

variable {remaining completed : List RuleFamilyId}

variable {families : List RuleFamilyId}

/-! ## Levels -/

theorem mem_readyFamilies {familyId : RuleFamilyId} : familyId ∈ readyFamilies remaining completed ↔
      familyId ∈ remaining ∧ ∀ dependency ∈ familyId.descriptor.dependencies,
        dependency ∈ completed := by
  rw [readyFamilies, mem_sortBy, mem_filter]
  simp

theorem levelsFrom_perm {rounds : Nat}
    {levels : List (List RuleFamilyId)} (some : levelsFrom rounds remaining completed = .some levels) :
    levels.flatten.Perm remaining := by
  induction rounds generalizing remaining completed levels with
  | zero =>
    unfold levelsFrom at some
    split_ifs at some with empty
    cases some
    rw [empty]
    exact .refl _
  | succ rounds ih =>
    unfold levelsFrom at some
    dsimp only at some
    split_ifs at some with empty none
    · cases some
      rw [empty]
      exact .refl _
    · obtain ⟨rest, later, rfl⟩ := Option.map_eq_some_iff.mp some
      have apart : remaining.filter (· ∉ readyFamilies remaining completed) =
          remaining.filter fun familyId =>
            !familyId.descriptor.dependencies.all (· ∈ completed) := by
        apply filter_congr
        intro familyId member
        rw [decide_not]
        apply congrArg not
        rw [Bool.eq_iff_iff]
        simp [mem_readyFamilies, member]
      rw [flatten_cons]
      have rest := ih later
      rw [apart] at rest
      exact ((sortBy_perm _ _).append rest).trans (filter_append_perm _ _)

theorem dependencies_subset {familyId dependency : RuleFamilyId}
    (member : dependency ∈ familyId.descriptor.dependencies) : dependency = .syntaxStructure := by
  cases familyId
  case syntaxStructure => cases member
  all_goals exact mem_singleton.mp member

theorem levelsFrom_nil (rounds : Nat) (completed : List RuleFamilyId) :
    levelsFrom rounds [] completed = some [] := by
  cases rounds <;> rfl

theorem levelsFrom_of_completed {rounds : Nat} (authority : .syntaxStructure ∈ completed) :
    (levelsFrom (rounds + 1) remaining completed).isSome = true := by
  have ready : ∀ familyId ∈ remaining, familyId ∈ readyFamilies remaining completed := by
    intro familyId member
    refine mem_readyFamilies.mpr ⟨member, ?_⟩
    intro dependency needed
    rwa [dependencies_subset needed]
  have left : remaining.filter (· ∉ readyFamilies remaining completed) = [] :=
    filter_eq_nil_iff.mpr fun familyId member => by simp [ready familyId member]
  unfold levelsFrom
  dsimp only
  split_ifs with empty none
  · rfl
  · obtain ⟨familyId, rest, eq⟩ := exists_cons_of_ne_nil empty
    have member := ready familyId (by rw [eq]; exact mem_cons_self)
    rw [none] at member
    cases member
  · rw [left, levelsFrom_nil]
    rfl

theorem levelsFrom_isSome (authority : .syntaxStructure ∈ families) :
    (levelsFrom families.length families []).isSome = true := by
  have ready : .syntaxStructure ∈ readyFamilies families [] :=
    mem_readyFamilies.mpr ⟨authority, fun _ needed => by cases needed⟩
  have some : families ≠ [] := ne_nil_of_mem authority
  obtain ⟨rounds, length⟩ := Nat.exists_eq_succ_of_ne_zero (mt length_eq_zero_iff.mp some)
  rw [length, levelsFrom, if_neg some]
  dsimp only
  rw [if_neg (ne_nil_of_mem ready), Option.isSome_map]
  rcases rounds with _ | rounds
  · obtain ⟨familyId, only⟩ := length_eq_one_iff.mp length
    rw [only, mem_singleton] at authority
    rw [only, ← authority] at ready ⊢
    have left : [RuleFamilyId.syntaxStructure].filter
        (· ∉ readyFamilies [.syntaxStructure] []) = [] :=
      filter_eq_nil_iff.mpr fun familyId member => by
        rw [mem_singleton.mp member]
        simp [ready]
    rw [left]
    rfl
  · exact levelsFrom_of_completed (mem_append_right _ ready)

theorem topologicalLevels_perm (authority : .syntaxStructure ∈ families) :
    (topologicalLevels families).flatten.Perm families := by
  obtain ⟨levels, found⟩ := Option.isSome_iff_exists.mp (levelsFrom_isSome authority)
  rw [topologicalLevels, found, Option.getD_some]
  exact levelsFrom_perm found

theorem nodup_of_refuseDuplicates {seen families : List RuleFamilyId} {index : Nat}
    (ok : refuseDuplicates seen index families = .ok ()) :
    families.Nodup ∧ ∀ familyId ∈ families, familyId ∉ seen := by
  induction families generalizing seen index with
  | nil => exact ⟨nodup_nil, fun _ member => absurd member not_mem_nil⟩
  | cons familyId rest ih =>
    rw [refuseDuplicates, check_bind_eq_ok, refuseIf_eq_ok] at ok
    obtain ⟨nodup, fresh⟩ := ih ok.2
    constructor
    · exact nodup_cons.mpr ⟨fun member => fresh _ member mem_cons_self, nodup⟩
    · intro other member
      rcases mem_cons.mp member with rfl | later
      · exact ok.1
      · exact fun old => fresh other later (mem_cons_of_mem _ old)

/-! ## Admitted families -/

/-- The families `done` have been run and admitted, each under its name. -/
structure Admitted (done : List RuleFamilyId) (state : Preparation) : Prop where
  keys : state.prepared.keys = done
  own : ∀ entry ∈ state.prepared.entries, entry.2.familyId = entry.1
  evaluated : state.evaluated = done

section

variable {checks : RecordChecks} {evaluate : RuleFamilyId → Option EvaluatorResult}
  {input : RuleSchedulerInput} {limits : RuleSchedulerLimits} {preparation : Preparation}

variable {familyId : RuleFamilyId} {done : List RuleFamilyId}

variable {state later : Preparation} {execution : FamilyExecution}

theorem familyId_of_runFamily
    (ok : runFamily evaluate familyId = .ok execution) : execution.familyId = familyId := by
  unfold runFamily at ok
  cases evaluated : evaluate familyId with
  | none => rw [evaluated] at ok; cases ok
  | some result =>
    rw [evaluated] at ok
    simp only [check_bind_eq_ok] at ok
    obtain ⟨_, ok⟩ := ok
    cases bundle : result.bundle with
    | none => rw [bundle] at ok; cases ok
    | some bundle' => rw [bundle] at ok; cases ok; rfl

theorem Admitted.admitFamily (admitted : Admitted done state) (fresh : familyId ∉ done)
    (ok : admitFamily checks evaluate input limits state familyId = .ok later) :
    Admitted (done ++ [familyId]) later := by
  simp only [RuleScheduler.admitFamily, bind_eq_ok, pure, Except.pure, Except.ok.injEq] at ok
  obtain ⟨_, _, execution, runs, _, _, _, _, _, _, _, _, _, _, rfl⟩ := ok
  have entries := @OrderedMap.entries_set_of_notMem _ _ _ state.prepared execution familyId
    (admitted.keys ▸ fresh)
  constructor
  case keys =>
    rw [OrderedMap.keys, entries, map_append, ← admitted.keys]
    rfl
  case own =>
    intro entry member
    dsimp only at member
    rw [entries] at member
    rcases mem_append.mp member with old | new
    · exact admitted.own entry old
    · rw [mem_singleton.mp new]
      exact familyId_of_runFamily runs
  case evaluated =>
    dsimp only
    rw [admitted.evaluated]

theorem Admitted.foldlM {done rest : List RuleFamilyId}
    (admitted : Admitted done state) (nodup : (done ++ rest).Nodup)
    (ok : rest.foldlM (RuleScheduler.admitFamily checks evaluate input limits) state = .ok later) :
    Admitted (done ++ rest) later := by
  induction rest generalizing done state with
  | nil =>
    cases ok
    rwa [append_nil]
  | cons familyId rest ih =>
    rw [foldlM_cons, bind_eq_ok] at ok
    obtain ⟨between, first, remaining⟩ := ok
    have split : done ++ familyId :: rest = (done ++ [familyId]) ++ rest := by simp
    rw [split] at nodup ⊢
    have fresh : familyId ∉ done := fun member =>
      (nodup_append.mp (nodup_append.mp nodup).1).2.2 _ member _ mem_cons_self rfl
    exact ih (admitted.admitFamily fresh first) nodup remaining

theorem admitFamilies_eq_ok (ok : admitFamilies checks evaluate input limits = .ok preparation) :
    input.families.Nodup ∧ .syntaxStructure ∈ input.families ∧
      Admitted (topologicalLevels input.families).flatten preparation := by
  simp only [admitFamilies, normalizeFamilies, check_bind_eq_ok, refuseIf_eq_ok, not_not] at ok
  obtain ⟨⟨_, _, distinct, authority⟩, fold⟩ := ok
  have nodup := (nodup_of_refuseDuplicates distinct).1
  refine ⟨nodup, authority, ?_⟩
  have start : Admitted [] ⟨.empty, 0, []⟩ :=
    ⟨rfl, fun _ member => absurd member not_mem_nil, rfl⟩
  have levels := (topologicalLevels_perm authority).nodup_iff.mpr nodup
  exact start.foldlM levels fold

theorem Admitted.familyId_of_get? (admitted : Admitted done preparation)
    (found : preparation.prepared.get? familyId = some execution) : execution.familyId = familyId :=
  admitted.own _ (OrderedMap.mem_entries_of_get? found)

theorem Admitted.exists_get? (admitted : Admitted done preparation) (member : familyId ∈ done) :
    ∃ execution, preparation.prepared.get? familyId = some execution :=
  Option.isSome_iff_exists.mp (OrderedMap.isSome_get?.mpr (admitted.keys ▸ member))

/-! ## One level -/

theorem map_familyAt {α : Type} (level : List RuleFamilyId) (f : RuleFamilyId → α) :
    (range level.length).map (fun index => f (familyAt level index)) = level.map f := by
  apply ext_getElem
  · rw [length_map, length_map, length_range]
  · intro index inRange inLevel
    rw [length_map] at inLevel
    rw [getElem_map, getElem_map, getElem_range, familyAt,
      getD_eq_getElem?_getD, getElem?_eq_getElem inLevel, Option.getD_some]

/-- The results of a level are those of its families, each once. -/
theorem levelRun_perm {prepared : FamilyExecutions} {level : List RuleFamilyId}
    {results : List (Except RuleSchedulerIssue FamilyExecution)}
    (completes : LevelRun prepared limits level results) :
    results.Perm (level.map (preparedOutcome prepared)) := by
  obtain ⟨delayed, run, landed, rfl⟩ := completes
  have collected := run.reachable.collected
    (fun some => Nat.ne_of_gt (Nat.lt_min.mpr ⟨Nat.pos_of_ne_zero some, limits.concurrency.1⟩))
    landed
  rwa [map_familyAt] at collected

theorem exists_levelRun (prepared : FamilyExecutions) (limits : RuleSchedulerLimits)
    (level : List RuleFamilyId) : ∃ results, LevelRun prepared limits level results := by
  obtain ⟨delayed, run, ended⟩ := exists_delayed_ended (levelJobs prepared level)
    (fun index => perturbationTurns (familyAt level index) limits.scheduleSeed) []
    (min level.length limits.maximumConcurrency)
  refine ⟨delayed.pool.state, delayed, run, ended.resolve_left ?_, rfl⟩
  rw [run.reachable.running]
  exact Bool.false_ne_true

section Level

variable {done level : List RuleFamilyId}
  {results : List (Except RuleSchedulerIssue FamilyExecution)}

def executionsOf (prepared : FamilyExecutions) (families : List RuleFamilyId) :
    List FamilyExecution :=
  families.filterMap prepared.get?

section

variable (admitted : Admitted done preparation)

include admitted

theorem Admitted.map_preparedOutcome (within : ∀ familyId ∈ level, familyId ∈ done) :
    level.map (preparedOutcome preparation.prepared) =
      (executionsOf preparation.prepared level).map .ok := by
  induction level with
  | nil => rfl
  | cons familyId rest ih =>
    obtain ⟨execution, found⟩ := admitted.exists_get? (within familyId mem_cons_self)
    have later := ih fun other member => within other (mem_cons_of_mem _ member)
    rw [map_cons, later, executionsOf, executionsOf, filterMap_cons, found, preparedOutcome, found]
    rfl

theorem Admitted.map_familyId (within : ∀ familyId ∈ level, familyId ∈ done) :
    (executionsOf preparation.prepared level).map (·.familyId) = level := by
  induction level with
  | nil => rfl
  | cons familyId rest ih =>
    obtain ⟨execution, found⟩ := admitted.exists_get? (within familyId mem_cons_self)
    have later := ih fun other member => within other (mem_cons_of_mem _ member)
    rw [executionsOf, filterMap_cons, found, map_cons, admitted.familyId_of_get? found]
    exact congrArg (familyId :: ·) later

/-- The results of a level of admitted families are their executions in some order. -/
theorem Admitted.exists_results (within : ∀ familyId ∈ level, familyId ∈ done)
    (completes : LevelRun preparation.prepared limits level results) :
    ∃ executions : List FamilyExecution, results = executions.map .ok ∧
      executions.Perm (executionsOf preparation.prepared level) := by
  have perm := levelRun_perm completes
  rw [admitted.map_preparedOutcome within] at perm
  have composed : Relation.Comp (· = map Except.ok ·) Perm results
      (executionsOf preparation.prepared level) := by
    rwa [eq_map_comp_perm]
  exact composed

end

theorem firstFailure_map_ok (executions : List FamilyExecution) :
    firstFailure (executions.map .ok) = none := by
  have none : (executions.map Except.ok).filterMap issueOf = [] := by
    rw [filterMap_map]
    exact filterMap_eq_nil_iff.mpr fun _ _ => rfl
  rw [firstFailure, none]
  rfl

theorem entries_foldl_addExecution {executions : FamilyExecutions} {list : List FamilyExecution}
    (nodup : (executions.keys ++ list.map (·.familyId)).Nodup) :
    ((list.map Except.ok).foldl addExecution executions).entries =
      executions.entries ++ list.map fun execution => (execution.familyId, execution) := by
  induction list generalizing executions with
  | nil => rw [map_nil, map_nil, append_nil]; rfl
  | cons execution rest ih =>
    have fresh : execution.familyId ∉ executions.keys := fun member =>
      (nodup_append.mp nodup).2.2 _ member _ mem_cons_self rfl
    have entries := @OrderedMap.entries_set_of_notMem _ _ _ executions execution execution.familyId
      fresh
    have keys : (executions.set execution.familyId execution).keys =
        executions.keys ++ [execution.familyId] := by
      rw [OrderedMap.keys, entries, map_append]
      rfl
    have nodup : ((executions.set execution.familyId execution).keys ++
        rest.map (·.familyId)).Nodup := by
      rw [keys, append_assoc]
      exact nodup
    have folded := ih nodup
    rw [entries, append_assoc] at folded
    exact folded

end Level

/-! ## All levels -/

/-- The levels of admitted families end with the executions of all of them. -/
theorem Admitted.levelsRun {done : List RuleFamilyId} {levels : List (List RuleFamilyId)}
    {executions : FamilyExecutions} {outcome : Except RuleSchedulerIssue FamilyExecutions}
    (admitted : Admitted done preparation) (within : ∀ familyId ∈ levels.flatten, familyId ∈ done)
    (nodup : (executions.keys ++ levels.flatten).Nodup)
    (runs : LevelsRun preparation.prepared limits levels executions outcome) :
    ∃ later, outcome = .ok later ∧ later.values.Perm
        (executions.values ++ executionsOf preparation.prepared levels.flatten) := by
  induction runs with
  | done => exact ⟨_, rfl, by rw [flatten_nil, executionsOf, filterMap_nil, append_nil]⟩
  | failed completes failure =>
    rw [flatten_cons] at within
    obtain ⟨list, rfl, _⟩ :=
      admitted.exists_results (fun _ member => within _ (mem_append_left _ member)) completes
    rw [firstFailure_map_ok] at failure
    cases failure
  | @next level rest executions results outcome completes success goesOn ih =>
    rw [flatten_cons] at within nodup
    have inLevel : ∀ familyId ∈ level, familyId ∈ done :=
      fun _ member => within _ (mem_append_left _ member)
    obtain ⟨list, rfl, perm⟩ := admitted.exists_results inLevel completes
    have ids : (list.map (·.familyId)).Perm level := by
      have mapped := perm.map (·.familyId)
      rwa [admitted.map_familyId inLevel] at mapped
    have whole : (executions.keys ++ list.map (·.familyId) ++ rest.flatten).Nodup := by
      have moved := (ids.append_left executions.keys).append_right rest.flatten
      rw [moved.nodup_iff, append_assoc]
      exact nodup
    have entries := entries_foldl_addExecution (nodup_append.mp whole).1
    have keys : ((list.map Except.ok).foldl addExecution executions).keys =
        executions.keys ++ list.map (·.familyId) := by
      rw [OrderedMap.keys, entries, map_append, map_map]
      rfl
    have values : ((list.map Except.ok).foldl addExecution executions).values =
        executions.values ++ list := by
      rw [OrderedMap.values, entries, map_append, map_map]
      exact congrArg (executions.values ++ ·) (map_id list)
    rw [keys] at ih
    obtain ⟨later, eq, collected⟩ :=
      ih (fun _ member => within _ (mem_append_right _ member)) whole
    refine ⟨later, eq, collected.trans ?_⟩
    rw [values, append_assoc, flatten_cons, executionsOf, executionsOf, filterMap_append]
    exact (perm.append_right _).append_left _

theorem exists_levelsRun (prepared : FamilyExecutions) (limits : RuleSchedulerLimits)
    (levels : List (List RuleFamilyId)) (executions : FamilyExecutions) :
    ∃ outcome, LevelsRun prepared limits levels executions outcome := by
  induction levels generalizing executions with
  | nil => exact ⟨_, .done⟩
  | cons level rest ih =>
    obtain ⟨results, completes⟩ := exists_levelRun prepared limits level
    cases failure : firstFailure results with
    | some issue => exact ⟨_, .failed completes failure⟩
    | none =>
      obtain ⟨outcome, goesOn⟩ := ih (results.foldl addExecution executions)
      exact ⟨outcome, .next completes failure goesOn⟩

end

/-! ## The sequential schedule -/

section Sequential

variable (checks : RecordChecks) (evaluate : RuleFamilyId → Option EvaluatorResult)
  (input : RuleSchedulerInput) (limits : RuleSchedulerLimits)

/-- The executions of the requested families in the order of their identifiers. -/
def orderedExecutions (prepared : FamilyExecutions) (families : List RuleFamilyId) :
    List FamilyExecution :=
  sortBy compareExecutions (executionsOf prepared (topologicalLevels families).flatten)

/-- What the scheduler returns if the families just complete in the order of the levels. -/
def sequentialOutput : Except RuleSchedulerIssue RuleSchedulerOutput := do
  let preparation ← admitFamilies checks evaluate input limits
  let authority ← require (preparation.prepared.get? .syntaxStructure)
    (schedulerIssue .dependencyFailure "$.families" "a prepared family result is missing")
  finishSchedule checks input limits authority (orderedExecutions preparation.prepared input.families)

end Sequential

section

variable {checks : RecordChecks} {evaluate : RuleFamilyId → Option EvaluatorResult}
  {input : RuleSchedulerInput} {limits : RuleSchedulerLimits} {preparation : Preparation}

instance : Std.TransCmp compareExecutions :=
  inferInstanceAs (Std.TransCmp (comparingWith compareFamilies fun execution : FamilyExecution =>
    execution.familyId))

/-- The order in which the executions were collected does not show in their sorted list. -/
theorem Admitted.sortBy_eq {done : List RuleFamilyId} (admitted : Admitted done preparation)
    {list : List FamilyExecution} (families : List RuleFamilyId)
    (perm : list.Perm (executionsOf preparation.prepared families)) :
    sortBy compareExecutions list =
      sortBy compareExecutions (executionsOf preparation.prepared families) := by
  apply (sortBy_eq_of_perm compareExecutions _ perm.symm).symm
  intro first inFirst second inSecond tie
  have same : first.familyId = second.familyId := eq_of_compareFamilies tie
  obtain ⟨firstId, _, firstFound⟩ := mem_filterMap.mp inFirst
  obtain ⟨secondId, _, secondFound⟩ := mem_filterMap.mp inSecond
  rw [admitted.familyId_of_get? firstFound, admitted.familyId_of_get? secondFound] at same
  rw [same, secondFound] at firstFound
  exact (Option.some.inj firstFound).symm

/-- The result is `sequentialOutput`. -/
theorem Schedules.output_eq {result : Except RuleSchedulerIssue RuleSchedulerSuccess}
    (schedules : Schedules checks evaluate input limits result) :
    result.map (·.output) = sequentialOutput checks evaluate input limits := by
  have collected : ∀ {preparation outcome},
      admitFamilies checks evaluate input limits = .ok preparation →
      LevelsRun preparation.prepared limits (topologicalLevels input.families) .empty outcome →
      ∃ later, outcome = .ok later ∧ sortBy compareExecutions later.values =
        orderedExecutions preparation.prepared input.families := by
    intro preparation outcome admits runs
    obtain ⟨distinct, authority, admitted⟩ := admitFamilies_eq_ok admits
    have nodup : ((OrderedMap.empty : FamilyExecutions).keys ++
        (topologicalLevels input.families).flatten).Nodup :=
      (topologicalLevels_perm authority).nodup_iff.mpr distinct
    obtain ⟨later, rfl, perm⟩ := admitted.levelsRun (fun _ member => member) nodup runs
    exact ⟨later, rfl, admitted.sortBy_eq _ perm⟩
  cases schedules with
  | refused refuses =>
    rw [sequentialOutput, refuses]
    rfl
  | failed admits runs =>
    obtain ⟨_, eq, _⟩ := collected admits runs
    cases eq
  | @finished preparation authority executions admits runs isAuthority =>
    obtain ⟨_, eq, sorted⟩ := collected admits runs
    cases eq
    rw [sequentialOutput, admits, ok_bind, isAuthority, require, Option.elim_some, ok_bind, sorted]
    cases finishSchedule checks input limits authority
      (orderedExecutions preparation.prepared input.families) <;> rfl

/-- Whatever the concurrency and the seed, the scheduler comes to a result. -/
theorem exists_schedules (checks : RecordChecks)
    (evaluate : RuleFamilyId → Option EvaluatorResult) (input : RuleSchedulerInput)
    (limits : RuleSchedulerLimits) : ∃ result, Schedules checks evaluate input limits result := by
  cases admits : admitFamilies checks evaluate input limits with
  | error issue => exact ⟨_, .refused admits⟩
  | ok preparation =>
    obtain ⟨_, authority, admitted⟩ := admitFamilies_eq_ok admits
    have inLevels := (topologicalLevels_perm authority).mem_iff.mpr authority
    obtain ⟨execution, isAuthority⟩ := admitted.exists_get? inLevels
    obtain ⟨outcome, runs⟩ :=
      exists_levelsRun preparation.prepared limits (topologicalLevels input.families) .empty
    cases outcome with
    | error issue => exact ⟨_, .failed admits runs⟩
    | ok executions => exact ⟨_, .finished admits runs isAuthority⟩

/-- Only the limit on the diagnostics has a part in the sequential schedule. -/
theorem sequentialOutput_congr {first second : RuleSchedulerLimits}
    (same : first.maximumDiagnostics = second.maximumDiagnostics) :
    sequentialOutput checks evaluate input first = sequentialOutput checks evaluate input second := by
  have admits : admitFamily checks evaluate input first = admitFamily checks evaluate input second := by
    funext state familyId
    simp only [admitFamily, same]
  have finish : finishSchedule checks input first = finishSchedule checks input second := by
    funext authority ordered
    simp only [finishSchedule, same]
  simp [sequentialOutput, admitFamilies, admits, finish]

/-! ## Each family once -/

/-- Every requested family is run once, and every family has one result. -/
structure OncePerFamily (evaluated families : List RuleFamilyId) (output : RuleSchedulerOutput) :
    Prop where
  once : evaluated.Perm families
  order : output.executionOrder = evaluated
  results : (output.families.map (·.familyId)).Perm families
  nodup : families.Nodup

theorem Schedules.oncePerFamily {success : RuleSchedulerSuccess}
    (schedules : Schedules checks evaluate input limits (.ok success)) :
    ∃ preparation, admitFamilies checks evaluate input limits = .ok preparation ∧
      OncePerFamily preparation.evaluated input.families success.output := by
  have output := schedules.output_eq
  rw [Except.map, sequentialOutput, eq_comm, bind_eq_ok] at output
  obtain ⟨preparation, admits, output⟩ := output
  obtain ⟨execution, _, output⟩ := bind_eq_ok.mp output
  rw [finishSchedule, bind_eq_ok] at output
  obtain ⟨report, _, output⟩ := output
  obtain ⟨distinct, authority, admitted⟩ := admitFamilies_eq_ok admits
  have levels := topologicalLevels_perm authority
  refine ⟨preparation, admits, ?_⟩
  rw [← Except.ok.inj output]
  constructor
  case once => rwa [admitted.evaluated]
  case order => exact admitted.evaluated.symm
  case results =>
    have perm := (sortBy_perm compareExecutions (executionsOf preparation.prepared
      (topologicalLevels input.families).flatten)).map (·.familyId)
    rw [admitted.map_familyId fun _ member => member] at perm
    rw [map_map]
    exact perm.trans levels
  case nodup => exact distinct

/-- The output depends neither on the workers nor on the seed nor on the order in which evaluators
end, and has every family once. -/
theorem scheduleRuleFamilies_schedule_independent {first second : RuleSchedulerLimits}
    {left right : Except RuleSchedulerIssue RuleSchedulerSuccess}
    (same : first.maximumDiagnostics = second.maximumDiagnostics)
    (leftRun : Schedules checks evaluate input first left)
    (rightRun : Schedules checks evaluate input second right) :
    left.map (·.output) = right.map (·.output) ∧
      ∀ success, left = .ok success →
        ∃ preparation, admitFamilies checks evaluate input first = .ok preparation ∧
          OncePerFamily preparation.evaluated input.families success.output := by
  constructor
  · rw [leftRun.output_eq, rightRun.output_eq, sequentialOutput_congr same]
  · intro success eq
    subst eq
    exact leftRun.oncePerFamily

end

/-! ## Two families -/

/-- The syntax family finds one diagnostic that a directive suppresses, the others find none. -/
def lineEvaluator : RuleFamilyId → Option EvaluatorResult
  | .syntaxStructure =>
    some ⟨some true, some ⟨[Suppression.lineDiagnostic "d1" "x" 1],
      [(lineDirective "s1" 0).record]⟩, some [], [lineDirective "s1" 0]⟩
  | _ => some ⟨some true, some ⟨[], []⟩, none, []⟩

def twoFamilies : RuleSchedulerInput where
  families := [.portability, .syntaxStructure, .security]
  policy := ⟨.warning, .empty⟩
  sources := []

def workersLimits (maximumConcurrency scheduleSeed : Nat)
    (concurrency : 1 ≤ maximumConcurrency ∧ maximumConcurrency ≤ ruleFamilyIds.length)
    (seed : scheduleSeed ≤ 0xffffffff) : RuleSchedulerLimits :=
  ⟨maximumConcurrency, maxDiagnosticsPerBundle, scheduleSeed, concurrency, by decide, seed⟩

/-- The sources and the paths of the diagnostics that one worker ends with. -/
theorem sequentialOutput_twoFamilies : (sequentialOutput acceptingChecks lineEvaluator twoFamilies
      (workersLimits 1 0 (by decide) (by decide))).map
        (fun output => (output.sources, output.bundle.diagnostics.map (·.primary.path))) =
          .ok ([], [js "a"]) := by
  decide +kernel

/-- One worker and two workers run two families. -/
theorem scheduleRuleFamilies_schedule_independent_two :
    ∃ success right,
      Schedules acceptingChecks lineEvaluator twoFamilies
        (workersLimits 1 0 (by decide) (by decide)) (.ok success) ∧
      Schedules acceptingChecks lineEvaluator twoFamilies
        (workersLimits 2 7 (by decide) (by decide)) right ∧
      .ok success.output = right.map (·.output) ∧
      ∃ preparation : Preparation, OncePerFamily preparation.evaluated twoFamilies.families success.output := by
  obtain ⟨output, ok, _⟩ := eq_ok_of_map sequentialOutput_twoFamilies
  obtain ⟨left, leftRun⟩ := exists_schedules acceptingChecks lineEvaluator twoFamilies
    (workersLimits 1 0 (by decide) (by decide))
  obtain ⟨right, rightRun⟩ := exists_schedules acceptingChecks lineEvaluator twoFamilies
    (workersLimits 2 7 (by decide) (by decide))
  have leftOk := leftRun.output_eq
  rw [ok] at leftOk
  obtain ⟨success, rfl, _⟩ := eq_ok_of_map leftOk
  have limits : (workersLimits 1 0 (by decide) (by decide)).maximumDiagnostics =
      (workersLimits 2 7 (by decide) (by decide)).maximumDiagnostics := rfl
  obtain ⟨same, once⟩ := scheduleRuleFamilies_schedule_independent limits leftRun rightRun
  obtain ⟨preparation, _, once⟩ := once success rfl
  exact ⟨success, right, leftRun, rightRun, same, preparation, once⟩

end AgentContextLint.RuleScheduler
