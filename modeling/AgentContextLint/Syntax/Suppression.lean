import AgentContextLint.Core.DiagnosticValidation
import AgentContextLint.Lib.OrderedMap

/-!
# Matching suppression directives

Model of `matchSuppressionDirectives` in `packages/syntax/src/suppression.ts`: directives are
indexed by source, line and rule, each diagnostic goes to the directive the index holds for it,
and the records of the directives are resolved to `suppressed` or `unused`. The directives are
those the parser issued.

* `matchDiagnostics_eq`: the loop over the diagnostics splits them and collects fingerprints.
-/

namespace AgentContextLint

open Utf16 Utf8 Metered Sorting DiagnosticValidation List
open Option (bind_some or_none)
open OrderedMap (get?_set)

structure ParsedSuppressionDirective where
  record : SuppressionRecord
  target : DiagnosticSourceLocation

structure SuppressedDiagnostic where
  diagnostic : Diagnostic
  suppressionId : Text

structure SuppressionMatchResult where
  bundle : DiagnosticBundle
  suppressedDiagnostics : List SuppressedDiagnostic
  visibleDiagnostics : List Diagnostic

inductive SuppressionProcessorErrorCode
  | invalidBundle
  | invalidInput
  | invalidOutput
  | invalidOwnership
  deriving DecidableEq

structure SuppressionProcessorError where
  code : SuppressionProcessorErrorCode
  message : String
  deriving DecidableEq

namespace Suppression

variable (diagnostic : Diagnostic)

/-- `ABSOLUTE_SUPPRESSION_LIMITS.maxCandidates` -/
def maxCandidates : Nat := 1024

/-- `if (condition) fail(code, message)` -/
def failIf (condition : Prop) [Decidable condition] (code : SuppressionProcessorErrorCode)
    (message : String) : Except SuppressionProcessorError Unit :=
  if condition then .error ⟨code, message⟩ else .ok ()

theorem failIf_eq_ok {condition : Prop} [Decidable condition] {code : SuppressionProcessorErrorCode}
    {message : String} {out : Unit} : failIf condition code message = .ok out ↔ ¬ condition := by
  unfold failIf
  split_ifs with holds
  · exact ⟨fun eq => (by cases eq), fun not => absurd holds not⟩
  · exact ⟨fun _ => holds, fun _ => rfl⟩

def compareDirectives : ParsedSuppressionDirective → ParsedSuppressionDirective → Ordering :=
  compareLex (comparingBytes (·.record.directive.path)) <|
  compareLex (compareOn (·.record.directive.range.start.utf16Offset)) <|
  comparingBytes (·.record.id)

/-! ## The index of the directives -/

abbrev RuleOwners := OrderedMap Text ParsedSuppressionDirective

abbrev LineOwners := OrderedMap Nat RuleOwners

abbrev SourceOwners := OrderedMap Text LineOwners

/-- `if (!rules.has(ruleId)) rules.set(ruleId, directive)` -/
def claimRule (directive : ParsedSuppressionDirective) (rules : RuleOwners) (ruleId : Text) :
    RuleOwners :=
  if (rules.get? ruleId).isSome then rules else rules.set ruleId directive

/-- The round of `ownerIndex` for one directive. -/
def claim (sources : SourceOwners) (directive : ParsedSuppressionDirective) : SourceOwners :=
  let line := directive.target.range.start.line
  let lines := (sources.get? directive.target.sourceId).getD .empty
  let rules := (lines.get? line).getD .empty
  sources.set directive.target.sourceId
    (lines.set line (directive.record.targetRuleIds.foldl (claimRule directive) rules))

def ownerIndex (directives : List ParsedSuppressionDirective) : SourceOwners :=
  directives.foldl claim .empty

variable (owners : SourceOwners)

/-- `owners.get(…)?.get(…)?.get(…)` -/
def ownerOf (diagnostic : Diagnostic) : Option ParsedSuppressionDirective :=
  (owners.get? diagnostic.primary.sourceId).bind fun lines =>
    (lines.get? diagnostic.primary.range.start.line).bind fun rules =>
      rules.get? diagnostic.ruleId

/-! ## The loop over the diagnostics -/

structure Matching where
  matched : OrderedMap Text (List Text)
  suppressedDiagnostics : List SuppressedDiagnostic
  visibleDiagnostics : List Diagnostic

def matchDiagnostic (state : Matching) (diagnostic : Diagnostic) : Matching :=
  match ownerOf owners diagnostic with
  | none => { state with visibleDiagnostics := state.visibleDiagnostics ++ [diagnostic] }
  | some owner =>
    { state with
      matched := state.matched.append owner.record.id diagnostic.pathFingerprint
      suppressedDiagnostics :=
        state.suppressedDiagnostics ++ [⟨diagnostic, owner.record.id⟩] }

def matchDiagnostics (diagnostics : List Diagnostic) : Matching :=
  diagnostics.foldl (matchDiagnostic owners) ⟨.empty, [], []⟩

variable (matched : OrderedMap Text (List Text))

def resolveRecord (directive : ParsedSuppressionDirective) : SuppressionRecord :=
  let fingerprints := sortBy compareBytes (matched.members directive.record.id).eraseDups
  { directive.record with
    matchedPathFingerprints := fingerprints
    state := if fingerprints = [] then .unused else .suppressed }

/-! ## The matcher -/

def sameRecord (left right : SuppressionRecord) : Bool :=
  left.id = right.id ∧ left.state = .applicable ∧ right.state = .applicable ∧
    left.directive = right.directive ∧ left.reason = right.reason ∧
    left.targetRuleIds = right.targetRuleIds ∧ left.matchedPathFingerprints = [] ∧
    right.matchedPathFingerprints = [] ∧ left.evidence = [] ∧ right.evidence = []

def recordsById (suppressions : List SuppressionRecord) : OrderedMap Text SuppressionRecord :=
  suppressions.foldl (fun records record => records.set record.id record) .empty

def isOwned (records : OrderedMap Text SuppressionRecord)
    (directive : ParsedSuppressionDirective) : Bool :=
  (records.get? directive.record.id).any fun record => sameRecord record directive.record

/-- What `matchSuppressionDirectives` builds behind its checks. -/
def resolveDirectives (bundle : DiagnosticBundle) (parsed : List ParsedSuppressionDirective) :
    SuppressionMatchResult :=
  let matching := matchDiagnostics (ownerIndex parsed) bundle.diagnostics
  { bundle := { bundle with suppressions := parsed.map (resolveRecord matching.matched) }
    suppressedDiagnostics := matching.suppressedDiagnostics
    visibleDiagnostics := matching.visibleDiagnostics }

def matchSuppressionDirectives (checks : RecordChecks) (bundle : DiagnosticBundle)
    (directives : List ParsedSuppressionDirective) (sources : List SourceDocument) :
    Except SuppressionProcessorError SuppressionMatchResult := do
  failIf (maxCandidates < directives.length) .invalidOwnership
    "directives must be a bounded parser result array"
  let parsed := sortBy compareDirectives directives
  failIf (validateDiagnosticBundle checks sources bundle = false) .invalidBundle
    "bundle must satisfy the B04 diagnostic contract"
  failIf (bundle.suppressions.length ≠ parsed.length) .invalidOwnership
    "bundle suppressions must match parsed directives"
  failIf (∃ directive ∈ parsed, isOwned (recordsById bundle.suppressions) directive = false)
    .invalidOwnership "bundle contains a forged suppression record"
  let result := resolveDirectives bundle parsed
  failIf (validateDiagnosticBundle checks sources result.bundle = false) .invalidOutput
    "resolved suppression bundle is inconsistent"
  pure result

/-! ## Attribution -/

variable (directive : ParsedSuppressionDirective)

/-- The directive names the source, the line and the rule of the diagnostic. -/
def Targets (diagnostic : Diagnostic) : Prop :=
  directive.target.sourceId = diagnostic.primary.sourceId ∧
    directive.target.range.start.line = diagnostic.primary.range.start.line ∧
    diagnostic.ruleId ∈ directive.record.targetRuleIds

instance (directive : ParsedSuppressionDirective) (diagnostic : Diagnostic) :
    Decidable (Targets directive diagnostic) :=
  inferInstanceAs (Decidable (_ ∧ _ ∧ _))

variable (directives : List ParsedSuppressionDirective)

def firstTarget (diagnostic : Diagnostic) : Option ParsedSuppressionDirective :=
  directives.find? fun directive => decide (Targets directive diagnostic)

theorem firstTarget_concat (front : List ParsedSuppressionDirective)
    (directive : ParsedSuppressionDirective) (diagnostic : Diagnostic) :
    firstTarget (front ++ [directive]) diagnostic = (firstTarget front diagnostic).or
        (if Targets directive diagnostic then some directive else none) := by
  rw [firstTarget, find?_append, find?_singleton]
  simp only [decide_eq_true_eq]
  rfl

theorem get?_claimRules (ruleIds : List Text) (rules : RuleOwners) (ruleId : Text) :
    (ruleIds.foldl (claimRule directive) rules).get? ruleId =
      (rules.get? ruleId).or (if ruleId ∈ ruleIds then some directive else none) := by
  induction ruleIds generalizing rules with
  | nil => simp
  | cons first rest ih =>
    have round : (claimRule directive rules first).get? ruleId =
        (rules.get? ruleId).or (if ruleId = first then some directive else none) := by
      unfold claimRule
      split_ifs with taken same same
      · rw [same]
        cases here : rules.get? first with
        | none => rw [here] at taken; cases taken
        | some owner => rfl
      · rw [or_none]
      · rw [get?_set, if_pos same.symm, same, Option.not_isSome_iff_eq_none.mp taken]
        rfl
      · rw [get?_set, if_neg fun eq => same eq.symm, or_none]
    rw [foldl_cons, ih, round, Option.or_assoc]
    congr 1
    by_cases same : ruleId = first <;> simp [same]

theorem ownerOf_claim : ownerOf (claim owners directive) diagnostic = (ownerOf owners diagnostic).or
        (if Targets directive diagnostic then some directive else none) := by
  unfold ownerOf claim
  rw [get?_set]
  by_cases source : directive.target.sourceId = diagnostic.primary.sourceId
  · rw [if_pos source, bind_some, get?_set]
    by_cases line : directive.target.range.start.line = diagnostic.primary.range.start.line
    · have target : Targets directive diagnostic ↔
          diagnostic.ruleId ∈ directive.record.targetRuleIds :=
        ⟨fun all => all.2.2, fun member => ⟨source, line, member⟩⟩
      rw [if_pos line, bind_some, get?_claimRules, source, line, if_congr target rfl rfl]
      congr 1
      cases owners.get? diagnostic.primary.sourceId with
      | none => rfl
      | some lines =>
        rw [Option.getD_some, bind_some]
        cases lines.get? diagnostic.primary.range.start.line with
        | none => rfl
        | some rules => rfl
    · rw [if_neg line, if_neg fun all => line all.2.1, or_none, source]
      cases owners.get? diagnostic.primary.sourceId with
      | none => rfl
      | some lines => rfl
  · rw [if_neg source, if_neg fun all => source all.1, or_none]

/-- The index finds the first directive that targets a diagnostic. -/
theorem ownerOf_ownerIndex :
    ownerOf (ownerIndex directives) diagnostic = firstTarget directives diagnostic := by
  induction directives using reverseRecOn with
  | nil => rfl
  | append_singleton front directive ih =>
    have round : ownerIndex (front ++ [directive]) = claim (ownerIndex front) directive := by
      rw [ownerIndex, foldl_append]
      rfl
    rw [round, ownerOf_claim, ih, firstTarget_concat]

/-! ## The loop as a partition -/

section Loop

variable (owners : SourceOwners)

theorem matchDiagnostics_concat (front : List Diagnostic) (diagnostic : Diagnostic) :
    matchDiagnostics owners (front ++ [diagnostic]) =
      matchDiagnostic owners (matchDiagnostics owners front) diagnostic := by
  rw [matchDiagnostics, foldl_append]
  rfl

variable (diagnostics : List Diagnostic)

theorem visibleDiagnostics_eq : (matchDiagnostics owners diagnostics).visibleDiagnostics =
      diagnostics.filter fun diagnostic => (ownerOf owners diagnostic).isNone := by
  induction diagnostics using reverseRecOn with
  | nil => rfl
  | append_singleton front diagnostic ih =>
    rw [matchDiagnostics_concat, filter_append, ← ih, matchDiagnostic, filter_singleton]
    cases ownerOf owners diagnostic with
    | none => rfl
    | some owner => exact (append_nil _).symm

theorem suppressedDiagnostics_eq : (matchDiagnostics owners diagnostics).suppressedDiagnostics =
      diagnostics.filterMap fun diagnostic =>
        (ownerOf owners diagnostic).map fun owner => ⟨diagnostic, owner.record.id⟩ := by
  induction diagnostics using reverseRecOn with
  | nil => rfl
  | append_singleton front diagnostic ih =>
    rw [matchDiagnostics_concat, filterMap_append, ← ih, matchDiagnostic,
      filterMap_cons, filterMap_nil]
    cases ownerOf owners diagnostic with
    | none => exact (append_nil _).symm
    | some owner => rfl

/-- The fingerprints under an identifier are those of the diagnostics attributed to it. -/
theorem members_matched (id : Text) : (matchDiagnostics owners diagnostics).matched.members id =
      (diagnostics.filter fun diagnostic =>
        (ownerOf owners diagnostic).any fun owner => owner.record.id = id).map
          (·.pathFingerprint) := by
  induction diagnostics using reverseRecOn with
  | nil => rfl
  | append_singleton front diagnostic ih =>
    rw [matchDiagnostics_concat, filter_append, map_append, ← ih, matchDiagnostic, filter_singleton]
    cases ownerOf owners diagnostic with
    | none => exact (append_nil _).symm
    | some owner =>
      dsimp only
      rw [OrderedMap.members_append, Option.any_some]
      by_cases same : owner.record.id = id
      · rw [if_pos same, decide_eq_true same]
        rfl
      · rw [if_neg same, decide_eq_false same]
        exact (append_nil _).symm

end Loop

theorem resolveRecord_state : (resolveRecord matched directive).state = .unused ↔
      matched.members directive.record.id = [] := by
  have sorted : sortBy compareBytes (matched.members directive.record.id).eraseDups = [] ↔
      matched.members directive.record.id = [] := by
    rw [← length_eq_zero_iff, length_sortBy, length_eq_zero_iff]
    cases matched.members directive.record.id with
    | nil => exact Iff.rfl
    | cons first rest => rw [eraseDups_cons]; simp
  unfold resolveRecord
  dsimp only
  split_ifs with none
  · exact ⟨fun _ => sorted.mp none, fun _ => rfl⟩
  · exact ⟨fun eq => (by cases eq), fun empty => absurd (sorted.mpr empty) none⟩

end Suppression

end AgentContextLint
