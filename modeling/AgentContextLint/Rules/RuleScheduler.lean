import AgentContextLint.Lib.WorkerPool
import AgentContextLint.Rules.RuleReport

/-!
# The rule scheduler

Model of `scheduleRuleFamilies` in `packages/rules/src/rule-scheduler.ts` without an abort signal
and without the deadline. The families are evaluated one after another by an evaluator for each of
them, which is a parameter; then workers complete the families of each level in an order that is
not determined, which `Schedules` relates to every result it may have.
-/

namespace AgentContextLint

open Utf16 Utf8 Metered Sorting WorkerPool DiagnosticValidation

/-- What the scheduler reads of the value that an evaluator returns. -/
structure EvaluatorResult where
  ok : Option Bool
  bundle : Option DiagnosticBundle
  sources : Option (List SourceDocument)
  /-- The directives registered for an issued evaluation of the syntax family. -/
  directives : List ParsedSuppressionDirective

structure FamilyExecution where
  bundle : DiagnosticBundle
  diagnosticCount : Nat
  familyId : RuleFamilyId
  sources : Option (List SourceDocument)
  syntaxEvaluation : Option EvaluatorResult

/-- The normalized input. The requests are the families, and their order is that of the request
map. -/
structure RuleSchedulerInput where
  families : List RuleFamilyId
  policy : RuleSchedulerPolicy
  sources : List SourceDocument

structure RuleFamilySummary where
  diagnosticCount : Nat
  familyId : RuleFamilyId
  ticketId : String

/-- The fields of a success, its limits apart. -/
structure RuleSchedulerOutput where
  bundle : DiagnosticBundle
  executionOrder : List RuleFamilyId
  families : List RuleFamilySummary
  sources : List SourceDocument
  summary : RuleSchedulerSummary
  suppressedDiagnostics : List Diagnostic
  visibleDiagnostics : List Diagnostic

structure RuleSchedulerSuccess where
  limits : RuleSchedulerLimits
  output : RuleSchedulerOutput

namespace RuleScheduler

/-! ## Requests and levels -/

/-- The families are checked one after another; `index` is the position of the first one. -/
def refuseDuplicates (seen : List RuleFamilyId) (index : Nat) :
    List RuleFamilyId → Except RuleSchedulerIssue Unit
  | [] => .ok ()
  | familyId :: rest => do
    refuseIf (familyId ∈ seen)
      (schedulerIssue .invalidInput ("$.families[" ++ toString index ++ "].familyId")
        "duplicates a family request")
    refuseDuplicates (familyId :: seen) (index + 1) rest

/-- The part of `normalizeInput` that is about the selection of families. -/
def normalizeFamilies (families : List RuleFamilyId) : Except RuleSchedulerIssue Unit := do
  refuseIf (ruleFamilyIds.length < families.length)
    (schedulerIssue .resourceLimit "$.families" "exceeds its hard item limit")
  refuseIf (families = [])
    (schedulerIssue .invalidInput "$.families" "must select at least one rule family")
  refuseDuplicates [] 0 families
  refuseIf (.syntaxStructure ∉ families)
    ⟨.dependencyFailure, "$.families",
      "syntax-structure is required as the source and suppression authority",
      some .syntaxStructure⟩

def readyFamilies (remaining completed : List RuleFamilyId) : List RuleFamilyId :=
  sortBy compareFamilies <| remaining.filter fun familyId =>
    familyId.descriptor.dependencies.all (· ∈ completed)

/-- The rounds of `topologicalLevels`; `none` where a round finds no family ready. -/
def levelsFrom : (rounds : Nat) → (remaining completed : List RuleFamilyId) →
    Option (List (List RuleFamilyId))
  | 0, remaining, _ => if remaining = [] then some [] else none
  | rounds + 1, remaining, completed =>
    if remaining = [] then some []
    else
      let ready := readyFamilies remaining completed
      if ready = [] then none
      else (levelsFrom rounds (remaining.filter (· ∉ ready)) (completed ++ ready)).map (ready :: ·)

def topologicalLevels (requests : List RuleFamilyId) : List (List RuleFamilyId) :=
  (levelsFrom requests.length requests []).getD []

/-! ## Evaluation of the families -/

def familyPath (familyId : RuleFamilyId) : String := "$.families." ++ familyId.text

def runFamily (evaluate : RuleFamilyId → Option EvaluatorResult) (familyId : RuleFamilyId) :
    Except RuleSchedulerIssue FamilyExecution :=
  match evaluate familyId with
  | none =>
    .error ⟨.familyFailure, familyPath familyId,
      "the built-in evaluator rejected its validated request", some familyId⟩
  | some result => do
    refuseIf (result.ok = some false)
      ⟨.familyFailure, familyPath familyId,
        "the built-in evaluator rejected its validated request", some familyId⟩
    match result.bundle with
    | none =>
      .error ⟨.familyFailure, familyPath familyId,
        "the built-in evaluator returned no diagnostic bundle", some familyId⟩
    | some bundle =>
      pure
        { bundle := bundle
          diagnosticCount := bundle.diagnostics.length
          familyId := familyId
          sources := result.sources
          syntaxEvaluation := if familyId = .syntaxStructure then some result else none }

/-- `INSTRUCTION_IR_SNAPSHOT_LIMITS.maximumSources` -/
def maximumSources : Nat := 1024

def sameSourceRegistries (left right : List SourceDocument) : Bool :=
  left.length ≤ maximumSources && left = right

def belongsToFamily (familyId : RuleFamilyId) (diagnostic : Diagnostic) : Bool :=
  familyId.descriptor.ruleIds.any fun ruleId => js ruleId = diagnostic.ruleId

/-- The state of the loop over the families, with the families it has run. -/
structure Preparation where
  prepared : OrderedMap RuleFamilyId FamilyExecution
  admittedDiagnosticCount : Nat
  evaluated : List RuleFamilyId

section Evaluation

variable (checks : RecordChecks) (evaluate : RuleFamilyId → Option EvaluatorResult)
  (input : RuleSchedulerInput) (limits : RuleSchedulerLimits)

def admitFamily (state : Preparation) (familyId : RuleFamilyId) :
    Except RuleSchedulerIssue Preparation := do
  refuseIf (familyId ∉ input.families)
    ⟨.dependencyFailure, "$.families", "a family request is missing", some familyId⟩
  let execution ← runFamily evaluate familyId
  refuseIf (familyId = .syntaxStructure ∧
      execution.syntaxEvaluation.all (fun result => result.ok ≠ some true) = true)
    ⟨.dependencyFailure, "$.families.syntax-structure",
      "the F05 authority result is missing or invalid", some familyId⟩
  refuseIf (execution.sources.any fun sources => !sameSourceRegistries sources input.sources)
    ⟨.invalidOutput, "$output.sources", "family source registry differs from the engine snapshot",
      some familyId⟩
  refuseIf (validateDiagnosticBundle checks input.sources execution.bundle = false)
    ⟨.invalidOutput, "$output.diagnostics",
      "family diagnostics are not bound to the engine snapshot", some familyId⟩
  refuseIf (∃ diagnostic ∈ execution.bundle.diagnostics,
      belongsToFamily familyId diagnostic = false)
    ⟨.invalidOutput, "$output.diagnostics", "family emitted an unowned rule", some familyId⟩
  let admittedDiagnosticCount :=
    state.admittedDiagnosticCount + execution.bundle.diagnostics.length
  refuseIf (limits.maximumDiagnostics < admittedDiagnosticCount)
    (schedulerIssue .resourceLimit "$output.diagnostics" "diagnostics exceed the scheduler limit")
  pure
    { prepared := state.prepared.set familyId execution
      admittedDiagnosticCount := admittedDiagnosticCount
      evaluated := state.evaluated ++ [familyId] }

/-- The synchronous part: all families are evaluated, level by level. -/
def admitFamilies : Except RuleSchedulerIssue Preparation := do
  normalizeFamilies input.families
  (topologicalLevels input.families).flatten.foldlM (admitFamily checks evaluate input limits)
    ⟨.empty, 0, []⟩

end Evaluation

/-! ## Completion of the levels -/

/-- `Math.imul` and `>>> 0` keep the low 32 bits. -/
def perturbationTurns (familyId : RuleFamilyId) (seed : Nat) : Nat :=
  if seed = 0 then 0
  else
    let state := (encode (js familyId.text)).foldl
      (fun (state : UInt32) byte => (state ^^^ byte.toUInt32) * 1664525 + 1013904223)
      (.ofNat seed)
    state.toNat % 3 + 1

abbrev FamilyExecutions := OrderedMap RuleFamilyId FamilyExecution

section Levels

variable (prepared : FamilyExecutions) (limits : RuleSchedulerLimits)

def preparedOutcome (familyId : RuleFamilyId) : Except RuleSchedulerIssue FamilyExecution :=
  match prepared.get? familyId with
  | none =>
    .error ⟨.dependencyFailure, "$.families", "a prepared family result is missing",
      some familyId⟩
  | some execution => .ok execution

/-- The family under the cursor; the cursor stays below the length of the level. -/
def familyAt (level : List RuleFamilyId) (index : Nat) : RuleFamilyId :=
  level.getD index .syntaxStructure

def levelJobs (level : List RuleFamilyId) : Jobs (List (Except RuleSchedulerIssue FamilyExecution)) :=
  collecting level.length fun index => preparedOutcome prepared (familyAt level index)

/-- `runLevel` may return `results`. -/
def LevelRun (level : List RuleFamilyId)
    (results : List (Except RuleSchedulerIssue FamilyExecution)) : Prop :=
  ∃ delayed,
    DelayedReachable (levelJobs prepared level)
      (fun index => perturbationTurns (familyAt level index) limits.scheduleSeed) []
      (min level.length limits.maximumConcurrency) delayed ∧
    delayed.pool.inFlight = [] ∧ results = delayed.pool.state

def issueOf : Except RuleSchedulerIssue FamilyExecution → Option RuleSchedulerIssue
  | .error issue => some issue
  | .ok _ => none

/-- The issue of the first family in the order of the identifiers. -/
def firstFailure (results : List (Except RuleSchedulerIssue FamilyExecution)) :
    Option RuleSchedulerIssue :=
  (sortBy (comparingBytes fun issue : RuleSchedulerIssue =>
      (issue.familyId.map fun familyId => js familyId.text).getD [])
    (results.filterMap issueOf)).head?

def addExecution (executions : FamilyExecutions) :
    Except RuleSchedulerIssue FamilyExecution → FamilyExecutions
  | .error _ => executions
  | .ok execution => executions.set execution.familyId execution

/-- The loop over the levels may end with `outcome`. -/
inductive LevelsRun : List (List RuleFamilyId) → FamilyExecutions →
    Except RuleSchedulerIssue FamilyExecutions → Prop
  | done {executions : FamilyExecutions} : LevelsRun [] executions (.ok executions)
  | failed {level : List RuleFamilyId} {rest : List (List RuleFamilyId)}
      {executions : FamilyExecutions} {results : List (Except RuleSchedulerIssue FamilyExecution)}
      {issue : RuleSchedulerIssue} (completes : LevelRun prepared limits level results)
      (failure : firstFailure results = some issue) :
      LevelsRun (level :: rest) executions (.error issue)
  | next {level : List RuleFamilyId} {rest : List (List RuleFamilyId)}
      {executions : FamilyExecutions} {results : List (Except RuleSchedulerIssue FamilyExecution)}
      {outcome : Except RuleSchedulerIssue FamilyExecutions}
      (completes : LevelRun prepared limits level results) (success : firstFailure results = none)
      (goesOn : LevelsRun rest (results.foldl addExecution executions) outcome) :
      LevelsRun (level :: rest) executions outcome

end Levels

/-! ## The schedule -/

section Schedule

variable (checks : RecordChecks) (evaluate : RuleFamilyId → Option EvaluatorResult)
  (input : RuleSchedulerInput) (limits : RuleSchedulerLimits)

def compareExecutions : FamilyExecution → FamilyExecution → Ordering :=
  comparingWith compareFamilies (·.familyId)

/-- The result for the executions in the order of their families. -/
def finishSchedule (authority : FamilyExecution) (ordered : List FamilyExecution) :
    Except RuleSchedulerIssue RuleSchedulerOutput := do
  let rawBundle : DiagnosticBundle :=
    { diagnostics := ordered.flatMap (·.bundle.diagnostics)
      suppressions := authority.bundle.suppressions }
  let evaluation : SyntaxStructureEvaluation :=
    { bundle := authority.bundle
      directives := (authority.syntaxEvaluation.map (·.directives)).getD []
      sources := input.sources }
  let report ← reportDiagnostics checks input.policy limits.maximumDiagnostics evaluation rawBundle
  pure
    { bundle := report.bundle
      executionOrder := (topologicalLevels input.families).flatten
      families := ordered.map fun entry =>
        ⟨entry.diagnosticCount, entry.familyId, entry.familyId.descriptor.ticketId⟩
      sources := input.sources
      summary := report.views.summary
      suppressedDiagnostics := report.views.suppressed
      visibleDiagnostics := report.views.visible }

/-- `scheduleRuleFamilies` may end with a result. -/
inductive Schedules : Except RuleSchedulerIssue RuleSchedulerSuccess → Prop
  | refused {issue : RuleSchedulerIssue}
      (refuses : admitFamilies checks evaluate input limits = .error issue) :
      Schedules (.error issue)
  | failed {preparation : Preparation} {issue : RuleSchedulerIssue}
      (admits : admitFamilies checks evaluate input limits = .ok preparation)
      (runs : LevelsRun preparation.prepared limits (topologicalLevels input.families) .empty
        (.error issue)) :
      Schedules (.error issue)
  | finished {preparation : Preparation} {authority : FamilyExecution}
      {executions : FamilyExecutions}
      (admits : admitFamilies checks evaluate input limits = .ok preparation)
      (runs : LevelsRun preparation.prepared limits (topologicalLevels input.families) .empty
        (.ok executions))
      (isAuthority : preparation.prepared.get? .syntaxStructure = some authority) :
      Schedules ((finishSchedule checks input limits authority
        (sortBy compareExecutions executions.values)).map fun output => ⟨limits, output⟩)

end Schedule

end RuleScheduler

end AgentContextLint
