import AgentContextLint.Core.DiagnosticValidation
import AgentContextLint.Lib.OrderedMap

/-!
# Rule families

The ten built-in rule families of `packages/rules/src/rule-scheduler.ts` with their descriptors,
and the policy, the limits and the issues of the scheduler. The policy is the normalized one, the
duration limit and the abort signal are left out.
-/

namespace AgentContextLint

open Utf16 Utf8 Sorting

inductive RuleFamilyId
  | conflictsDuplication
  | contextEfficiency
  | documentContext
  | portability
  | referencesImports
  | repositoryDrift
  | scopeActivation
  | security
  | standardsFreshness
  | syntaxStructure
  deriving DecidableEq

def RuleFamilyId.text : RuleFamilyId → String
  | conflictsDuplication => "conflicts-duplication"
  | contextEfficiency => "context-efficiency"
  | documentContext => "document-context"
  | portability => "portability"
  | referencesImports => "references-imports"
  | repositoryDrift => "repository-drift"
  | scopeActivation => "scope-activation"
  | security => "security"
  | standardsFreshness => "standards-freshness"
  | syntaxStructure => "syntax-structure"

/-- `RULE_FAMILY_IDS` -/
def ruleFamilyIds : List RuleFamilyId :=
  [.conflictsDuplication, .contextEfficiency, .documentContext, .portability, .referencesImports,
    .repositoryDrift, .scopeActivation, .security, .standardsFreshness, .syntaxStructure]

structure RuleFamilyDescriptor where
  dependencies : List RuleFamilyId
  ruleIds : List String
  ticketId : String

/-- `RULE_FAMILY_DESCRIPTORS` -/
def RuleFamilyId.descriptor : RuleFamilyId → RuleFamilyDescriptor
  | conflictsDuplication =>
    ⟨[syntaxStructure], ["ACL250", "ACL251", "ACL252", "ACL253", "ACL254", "ACL255"], "F08"⟩
  | contextEfficiency =>
    ⟨[syntaxStructure], ["ACL550", "ACL551", "ACL552", "ACL553", "ACL554", "ACL555", "ACL556",
      "ACL557", "ACL558"], "F14"⟩
  | documentContext =>
    ⟨[syntaxStructure], ["ACL350", "ACL351", "ACL352", "ACL353", "ACL354", "ACL355"], "F10"⟩
  | portability => ⟨[syntaxStructure], ["ACL450", "ACL451", "ACL452", "ACL453"], "F12"⟩
  | referencesImports =>
    ⟨[syntaxStructure], ["ACL150", "ACL151", "ACL152", "ACL153", "ACL154", "ACL155", "ACL156"],
      "F06"⟩
  | repositoryDrift =>
    ⟨[syntaxStructure], ["ACL300", "ACL301", "ACL302", "ACL303", "ACL304", "ACL305"], "F09"⟩
  | scopeActivation =>
    ⟨[syntaxStructure], ["ACL200", "ACL201", "ACL202", "ACL203", "ACL204", "ACL205", "ACL206"],
      "F07"⟩
  | security =>
    ⟨[syntaxStructure], ["ACL400", "ACL401", "ACL402", "ACL403", "ACL404", "ACL405", "ACL406"],
      "F11"⟩
  | standardsFreshness =>
    ⟨[syntaxStructure], ["ACL500", "ACL501", "ACL502", "ACL503", "ACL504", "ACL505", "ACL506"],
      "F13"⟩
  | syntaxStructure =>
    ⟨[], ["ACL100", "ACL101", "ACL102", "ACL103", "ACL104", "ACL105", "ACL106", "ACL107",
      "ACL108", "ACL109"], "F05"⟩

/-- `compareUtf8` of family identifiers -/
def compareFamilies : RuleFamilyId → RuleFamilyId → Ordering := comparingBytes fun id => js id.text

instance : Std.TransCmp compareFamilies :=
  inferInstanceAs (Std.TransCmp (comparingBytes fun id : RuleFamilyId => js id.text))

theorem eq_of_compareFamilies {first second : RuleFamilyId}
    (same : compareFamilies first second = .eq) : first = second := by
  revert same
  cases first <;> cases second <;> decide

/-- `findRuleMetadata(ruleId) !== undefined`: the registry has the rules of the ten families. -/
def isRegisteredRule (ruleId : Text) : Bool :=
  ruleFamilyIds.any fun familyId => familyId.descriptor.ruleIds.any fun known => js known = ruleId

/-! ## Policy and limits -/

inductive RuleSchedulerFailureThreshold
  | error
  | never
  | warning

inductive RuleSchedulerSeverity
  | off
  | on (severity : DiagnosticSeverity)

structure RuleSchedulerPolicy where
  failureThreshold : RuleSchedulerFailureThreshold
  severityOverrides : OrderedMap Text RuleSchedulerSeverity

/-- Limits within the bounds that `normalizeOptions` checks. -/
structure RuleSchedulerLimits where
  maximumConcurrency : Nat
  maximumDiagnostics : Nat
  scheduleSeed : Nat
  concurrency : 1 ≤ maximumConcurrency ∧ maximumConcurrency ≤ ruleFamilyIds.length
  diagnostics : 1 ≤ maximumDiagnostics ∧
    maximumDiagnostics ≤ DiagnosticValidation.maxDiagnosticsPerBundle
  seed : scheduleSeed ≤ 0xffffffff

/-! ## Issues -/

inductive RuleSchedulerIssueCode
  | dependencyFailure
  | familyFailure
  | invalidInput
  | invalidOutput
  | resourceLimit
  deriving DecidableEq

structure RuleSchedulerIssue where
  code : RuleSchedulerIssueCode
  path : String
  message : String
  familyId : Option RuleFamilyId
  deriving DecidableEq

/-- `schedulerIssue` without a family -/
def schedulerIssue (code : RuleSchedulerIssueCode) (path message : String) : RuleSchedulerIssue :=
  ⟨code, path, message, none⟩

end AgentContextLint
