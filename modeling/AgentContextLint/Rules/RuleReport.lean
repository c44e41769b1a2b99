import AgentContextLint.Rules.DiagnosticCanonicalization
import AgentContextLint.Rules.SyntaxSuppressions

/-!
# Rule reports

The part of `scheduleRuleFamilies` behind the evaluation of the families: the raw bundle is
filtered, its suppressions are finalized, the result is made canonical and summarized. The counts
that `packages/core/src/output-validation.ts` expects of a scan summary are here, too.
-/

namespace AgentContextLint

open Utf16 Metered

structure SeverityCounts where
  error : Nat
  info : Nat
  warning : Nat

structure RuleSchedulerSummary where
  active : SeverityCounts
  diagnosticCount : Nat
  failureThreshold : RuleSchedulerFailureThreshold
  shouldFail : Bool
  suppressedCount : Nat

structure RuleSchedulerViews where
  summary : RuleSchedulerSummary
  suppressed : List Diagnostic
  visible : List Diagnostic

/-- `OutputSummary` -/
structure OutputSummary where
  errors : Nat
  infos : Nat
  suppressed : Nat
  warnings : Nat

structure RuleReport where
  bundle : DiagnosticBundle
  views : RuleSchedulerViews

namespace RuleScheduler

/-- The path fingerprints that suppressed records matched, each once. -/
def suppressedFingerprints (bundle : DiagnosticBundle) : List Text :=
  ((bundle.suppressions.filter fun entry => entry.state = .suppressed).flatMap
    (·.matchedPathFingerprints)).eraseDups

def isHidden (bundle : DiagnosticBundle) (diagnostic : Diagnostic) : Bool :=
  diagnostic.pathFingerprint ∈ suppressedFingerprints bundle

def countOf (severity : DiagnosticSeverity) (diagnostics : List Diagnostic) : Nat :=
  diagnostics.countP fun diagnostic => diagnostic.severity = severity

def summaryOf (bundle : DiagnosticBundle) (threshold : RuleSchedulerFailureThreshold) :
    RuleSchedulerViews :=
  let suppressed := bundle.diagnostics.filter (isHidden bundle)
  let visible := bundle.diagnostics.filter fun entry => !isHidden bundle entry
  let active : SeverityCounts :=
    ⟨countOf .error visible, countOf .info visible, countOf .warning visible⟩
  { summary :=
      { active := active
        diagnosticCount := bundle.diagnostics.length
        failureThreshold := threshold
        shouldFail := match threshold with
          | .warning => 0 < active.error + active.warning
          | .error => 0 < active.error
          | .never => false
        suppressedCount := (suppressedFingerprints bundle).length }
    suppressed := suppressed
    visible := visible }

/-- `expectedSummary` of the validation of scan results -/
def expectedSummary (bundle : DiagnosticBundle) : OutputSummary :=
  let activeDiagnostics := bundle.diagnostics.filter fun entry => !isHidden bundle entry
  { errors := countOf .error activeDiagnostics
    infos := countOf .info activeDiagnostics
    suppressed := (suppressedFingerprints bundle).length
    warnings := countOf .warning activeDiagnostics }

def finalizationIssue (issue : SyntaxStructureIssue) : RuleSchedulerIssue :=
  schedulerIssue
    (if issue.code = .resourceLimit then .resourceLimit else .dependencyFailure)
    "$output.suppressions" "B08 finalization failed"

/-- `scheduleRuleFamilies` from the raw bundle on. -/
def reportDiagnostics (checks : RecordChecks) (policy : RuleSchedulerPolicy)
    (maximumDiagnostics : Nat) (evaluation : SyntaxStructureEvaluation)
    (rawBundle : DiagnosticBundle) : Except RuleSchedulerIssue RuleReport := do
  let filtered ← policyFilteredBundle checks evaluation.sources policy rawBundle
  let finalized ← (SyntaxStructure.finalizeScheduledSyntaxSuppressions checks evaluation
    filtered.diagnostics).mapError finalizationIssue
  refuseIf (maximumDiagnostics < finalized.bundle.diagnostics.length)
    (schedulerIssue .resourceLimit "$output.diagnostics"
      "diagnostics exceed the scheduler limit after ACL109 finalization")
  let canonical ← canonicalizeRuleDiagnostics checks evaluation.sources policy finalized.bundle
  pure ⟨canonical, summaryOf canonical policy.failureThreshold⟩

end RuleScheduler

end AgentContextLint
