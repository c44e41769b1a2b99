import AgentContextLint.Rules.RuleFamilies
import AgentContextLint.Syntax.Suppression

/-!
# Finalization of suppressions

Model of `finalizeScheduledSyntaxSuppressions` in `packages/rules/src/syntax-structure.ts`: the
directives of an issued evaluation are matched against the scheduled diagnostics, and every
directive that matches none gets a diagnostic of its own.
-/

namespace AgentContextLint

open Utf16 Utf8 Metered Sorting Sha256 DiagnosticValidation

/-- An evaluation of the syntax family with what was registered for it when it was issued. -/
structure SyntaxStructureEvaluation where
  bundle : DiagnosticBundle
  directives : List ParsedSuppressionDirective
  sources : List SourceDocument

structure SyntaxSuppressionFinalization where
  bundle : DiagnosticBundle
  suppressedDiagnostics : List Diagnostic
  visibleDiagnostics : List Diagnostic

inductive SyntaxStructureIssueCode
  | dependencyFailure
  | invalidInput
  | resourceLimit
  deriving DecidableEq

structure SyntaxStructureIssue where
  code : SyntaxStructureIssueCode
  path : String
  message : String

namespace SyntaxStructure

variable {diagnostics later : List Diagnostic} {directives : List ParsedSuppressionDirective}

/-- `SYNTAX_STRUCTURE_RULE_VERSION` -/
def syntaxStructureRuleVersion : Text := js "1.0.0"

def compareDiagnostics : Diagnostic → Diagnostic → Ordering :=
  compareLex (comparingBytes (·.primary.path)) <|
  compareLex (compareOn (·.primary.range.start.byteOffset)) <|
  compareLex (comparingBytes (·.ruleId)) <|
  comparingBytes (·.id)

/-- `sha256` over two texts, each behind its length -/
def diagnosticIdentity (semantic pathFingerprint : Text) : Text :=
  sha256Hex (DiagnosticFingerprint.frame semantic ++ DiagnosticFingerprint.frame pathFingerprint)

/-- The diagnostic of an unused directive; `none` where a fingerprint cannot be computed. -/
def unusedDiagnostic (suppression : SuppressionRecord) : Option Diagnostic :=
  let ruleId := js "ACL109"
  let pathBasis : PathFingerprintBasis := ⟨js "suppression:" ++ suppression.id, []⟩
  let semanticBasis : SemanticFingerprintBasis :=
    ⟨[⟨js "rules", [0x2c].intercalate suppression.targetRuleIds⟩,
      ⟨js "suppression-id", suppression.id⟩], []⟩
  (DiagnosticFingerprint.computeSemanticFingerprint ruleId syntaxStructureRuleVersion
    semanticBasis).bind fun semantic =>
  (DiagnosticFingerprint.computePathFingerprint ruleId syntaxStructureRuleVersion
    suppression.directive.path pathBasis).map fun pathFingerprint =>
    { id := js "diagnostic:acl109:" ++ (diagnosticIdentity semantic pathFingerprint).take 32
      ruleId := ruleId
      ruleVersion := syntaxStructureRuleVersion
      severity := .warning
      message := js "Suppression directive does not match a diagnostic on its target line."
      primary := suppression.directive
      related := []
      suggestion := some
        ⟨js "Remove the stale directive or place it immediately before the intended finding.", none⟩
      fingerprintBasis := ⟨pathBasis, semanticBasis⟩
      fingerprints := ⟨⟨DiagnosticFingerprint.pathFingerprintMethod, pathFingerprint⟩,
        ⟨DiagnosticFingerprint.semanticFingerprintMethod, semantic⟩⟩ }

/-- The round of the loop over the resolved suppressions. -/
def addUnused (directives : List ParsedSuppressionDirective) (diagnostics : List Diagnostic)
    (suppression : SuppressionRecord) : Except SyntaxStructureIssue (List Diagnostic) :=
  if suppression.state = .unused then do
    refuseIf (maxDiagnosticsPerBundle ≤ diagnostics.length)
      ⟨.resourceLimit, "$output.diagnostics", "generated diagnostics exceed the B04 limit"⟩
    match unusedDiagnostic suppression with
    | none =>
      .error ⟨.dependencyFailure, "$", "the suppression processor rejected the validated input"⟩
    | some diagnostic => do
      refuseIf (∀ directive ∈ directives, directive.record.id ≠ suppression.id)
        ⟨.dependencyFailure, "$output", "unused suppression ownership was lost"⟩
      pure (diagnostics ++ [diagnostic])
  else pure diagnostics

/-- The bundle the directives are matched against. -/
def applicableBundle (evaluation : SyntaxStructureEvaluation) (diagnostics : List Diagnostic) :
    DiagnosticBundle :=
  { evaluation.bundle with diagnostics := sortBy compareDiagnostics diagnostics }

/-- The diagnostics a finalization shows or hides, by the identifiers of the matched ones. -/
def isMatched (matched : SuppressionMatchResult) (diagnostic : Diagnostic) : Bool :=
  diagnostic.id ∈ matched.suppressedDiagnostics.map (·.diagnostic.id)

def finalizeScheduledSyntaxSuppressions (checks : RecordChecks)
    (evaluation : SyntaxStructureEvaluation) (scheduledDiagnostics : List Diagnostic) :
    Except SyntaxStructureIssue SyntaxSuppressionFinalization := do
  refuseIf (maxDiagnosticsPerBundle < scheduledDiagnostics.length)
    ⟨.invalidInput, "$.scheduledDiagnostics", "must be a bounded dense array"⟩
  let applicable := applicableBundle evaluation scheduledDiagnostics
  refuseIf (validateDiagnosticBundle checks evaluation.sources applicable = false)
    ⟨.invalidInput, "$.scheduledDiagnostics", "must contain valid B04 diagnostics"⟩
  let matched ← (Suppression.matchSuppressionDirectives checks applicable evaluation.directives
    evaluation.sources).mapError fun _ =>
      ⟨.dependencyFailure, "$", "the suppression processor rejected the validated input"⟩
  let diagnostics ← matched.bundle.suppressions.foldlM (addUnused evaluation.directives)
    matched.bundle.diagnostics
  let bundle := { matched.bundle with diagnostics := sortBy compareDiagnostics diagnostics }
  refuseIf (validateDiagnosticBundle checks evaluation.sources bundle = false)
    ⟨.dependencyFailure, "$output", "generated output failed B04 validation"⟩
  pure
    { bundle := bundle
      suppressedDiagnostics := bundle.diagnostics.filter (isMatched matched)
      visibleDiagnostics := bundle.diagnostics.filter fun entry => !isMatched matched entry }

/-! ## What a finalization keeps -/

theorem addUnused_eq_ok {suppression : SuppressionRecord}
    (ok : addUnused directives diagnostics suppression = .ok later) :
    ∃ added, later = diagnostics ++ added := by
  unfold addUnused at ok
  split_ifs at ok with unused
  · simp only [check_bind_eq_ok] at ok
    obtain ⟨_, ok⟩ := ok
    cases made : unusedDiagnostic suppression with
    | none => rw [made] at ok; cases ok
    | some diagnostic =>
      rw [made] at ok
      simp only [check_bind_eq_ok, pure, Except.pure, Except.ok.injEq] at ok
      exact ⟨[diagnostic], ok.2.symm⟩
  · exact ⟨[], by rw [List.append_nil]; exact (Except.ok.inj ok).symm⟩

theorem foldlM_addUnused_eq_ok {suppressions : List SuppressionRecord}
    (ok : suppressions.foldlM (addUnused directives) diagnostics = .ok later) :
    ∃ added, later = diagnostics ++ added := by
  induction suppressions generalizing diagnostics with
  | nil => exact ⟨[], by rw [List.append_nil]; exact (Except.ok.inj ok).symm⟩
  | cons suppression rest ih =>
    rw [List.foldlM_cons, bind_eq_ok] at ok
    obtain ⟨between, first, remaining⟩ := ok
    obtain ⟨added, rfl⟩ := addUnused_eq_ok first
    obtain ⟨more, rfl⟩ := ih remaining
    exact ⟨added ++ more, List.append_assoc _ _ _⟩

/-- The scheduled diagnostics are among the finalized ones, and the suppressions are the matched
ones. -/
theorem finalizeScheduledSyntaxSuppressions_eq_ok {checks : RecordChecks}
    {evaluation : SyntaxStructureEvaluation} {scheduledDiagnostics : List Diagnostic}
    {finalized : SyntaxSuppressionFinalization}
    (ok : finalizeScheduledSyntaxSuppressions checks evaluation scheduledDiagnostics =
      .ok finalized) :
    ∃ matched, Suppression.matchSuppressionDirectives checks
        (applicableBundle evaluation scheduledDiagnostics) evaluation.directives
          evaluation.sources = .ok matched ∧
      finalized.bundle.suppressions = matched.bundle.suppressions ∧
      ∀ diagnostic ∈ matched.bundle.diagnostics, diagnostic ∈ finalized.bundle.diagnostics := by
  simp only [finalizeScheduledSyntaxSuppressions, bind_eq_ok, mapError_eq_ok, pure, Except.pure,
    Except.ok.injEq] at ok
  obtain ⟨_, _, _, _, matched, matches_, diagnostics, added, _, _, rfl⟩ := ok
  refine ⟨matched, matches_, rfl, ?_⟩
  intro diagnostic member
  obtain ⟨more, rfl⟩ := foldlM_addUnused_eq_ok added
  exact (mem_sortBy _).mpr (List.mem_append_left _ member)

end SyntaxStructure

end AgentContextLint
