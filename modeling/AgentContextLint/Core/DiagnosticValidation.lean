import AgentContextLint.Core.DiagnosticFingerprint

/-!
# Validation of diagnostic bundles

Model of the acceptance of `packages/core/src/diagnostic-validation.ts`: `validateDiagnosticBundle`
is `true` where the validator reports no issue. The checks that stay within one location, one item
of related evidence or one fix plan, and the limits on the JSON text as a whole, are parameters
(`RecordChecks`); all that relates the records of a bundle to each other is written out.
-/

namespace AgentContextLint

open Utf16 Utf8 Sorting DiagnosticFingerprint

/-- The checks inside single records. -/
structure RecordChecks where
  /-- `validateJsonValue` within `DIAGNOSTIC_JSON_LIMITS` -/
  json : DiagnosticBundle → List SourceDocument → Bool
  /-- `validateLocation` -/
  location : List SourceDocument → DiagnosticSourceLocation → Bool
  /-- `validateEvidence`, its identifier apart -/
  evidence : List SourceDocument → RelatedEvidence → Bool
  /-- `validateFixPlan`, its identifier apart -/
  fixPlan : List SourceDocument → AtomicFixPlan → Bool

namespace DiagnosticValidation

def maxDiagnosticsPerBundle : Nat := 10000

def maxRelatedEvidencePerDiagnostic : Nat := 128

def maxSuppressionsPerBundle : Nat := 10000

def maxDiagnosticTextBytes : Nat := 16384

/-- `requiredString` with `maximumBytes` -/
def isBoundedText (value : Text) : Bool :=
  value ≠ [] && wellFormed value && byteLength value ≤ maxDiagnosticTextBytes

def isIdentifier (value : Text) : Bool :=
  value ≠ [] && wellFormed value && isStableIdentifier value

/-- `/^[a-f0-9]{64}$/` -/
def isFingerprint (value : Text) : Bool :=
  value.length = 64 && value.all fun unit =>
    (0x30 ≤ unit.toNat && unit.toNat ≤ 0x39) || (0x61 ≤ unit.toNat && unit.toNat ≤ 0x66)

/-- Every text is followed by a greater one. -/
def isCanonicalOrder (values : List Text) : Bool :=
  values.zip values.tail |>.all fun pair => compareBytes pair.1 pair.2 = .lt

/-- `validateCanonicalStringArray` over identifiers -/
def isCanonicalIdentifierArray (values : List Text) : Bool :=
  values.all isIdentifier && isCanonicalOrder values

/-- The identifiers that a diagnostic registers, in their order. -/
def diagnosticEntityIds (diagnostic : Diagnostic) : List Text :=
  diagnostic.id :: diagnostic.related.map (·.id) ++
    ((diagnostic.suggestion.bind (·.fixPlan)).map (·.id)).toList

def suppressionEntityIds (suppression : SuppressionRecord) : List Text :=
  suppression.id :: suppression.evidence.map (·.id)

/-- `entityIds` of the validation context -/
def entityIds (bundle : DiagnosticBundle) : List Text :=
  bundle.diagnostics.flatMap diagnosticEntityIds ++
    bundle.suppressions.flatMap suppressionEntityIds

variable (checks : RecordChecks) (sources : List SourceDocument)

def validateEvidenceArray (evidence : List RelatedEvidence) : Bool :=
  evidence.length ≤ maxRelatedEvidencePerDiagnostic && evidence.all fun item =>
    isIdentifier item.id && isBoundedText item.label && checks.evidence sources item

def validateSuggestion (suggestion : DiagnosticSuggestion) : Bool :=
  isBoundedText suggestion.message && suggestion.fixPlan.all fun plan =>
    isIdentifier plan.id && checks.fixPlan sources plan

def validateFingerprintBasis (basis : DiagnosticFingerprintBasis) : Bool :=
  isBoundedText basis.path.anchor &&
    basis.path.profileIds.length ≤ 128 && isCanonicalIdentifierArray basis.path.profileIds &&
    1 ≤ basis.semantic.components.length && basis.semantic.components.length ≤ 128 &&
    (basis.semantic.components.all fun component =>
      isIdentifier component.key && isBoundedText component.value) &&
    isCanonicalOrder (basis.semantic.components.map (·.key)) &&
    basis.semantic.profileIds.length ≤ 128 && isCanonicalIdentifierArray basis.semantic.profileIds

def validateFingerprints (diagnostic : Diagnostic) : Bool :=
  diagnostic.fingerprints.path.method = pathFingerprintMethod &&
    isFingerprint diagnostic.fingerprints.path.value &&
    diagnostic.fingerprints.semantic.method = semanticFingerprintMethod &&
    isFingerprint diagnostic.fingerprints.semantic.value &&
    computePathFingerprint diagnostic.ruleId diagnostic.ruleVersion diagnostic.primary.path
      diagnostic.fingerprintBasis.path = some diagnostic.fingerprints.path.value &&
    computeSemanticFingerprint diagnostic.ruleId diagnostic.ruleVersion
      diagnostic.fingerprintBasis.semantic = some diagnostic.fingerprints.semantic.value

def validateDiagnostic (diagnostic : Diagnostic) : Bool :=
  isIdentifier diagnostic.id && isIdentifier diagnostic.ruleId &&
    isIdentifier diagnostic.ruleVersion && isBoundedText diagnostic.message &&
    checks.location sources diagnostic.primary &&
    validateEvidenceArray checks sources diagnostic.related &&
    diagnostic.suggestion.all (validateSuggestion checks sources) &&
    validateFingerprintBasis diagnostic.fingerprintBasis && validateFingerprints diagnostic

/-- `matched` is empty unless the record is suppressed, and then it is not. -/
def stateAgrees (state : SuppressionState) (matched : List Text) : Bool :=
  match state with
  | .suppressed => matched ≠ []
  | .applicable | .unused => matched = []

def validateSuppression (pathFingerprints : List Text) (suppression : SuppressionRecord) : Bool :=
  isIdentifier suppression.id && checks.location sources suppression.directive &&
    1 ≤ suppression.targetRuleIds.length && suppression.targetRuleIds.length ≤ 1024 &&
    isCanonicalIdentifierArray suppression.targetRuleIds && suppression.reason.all isBoundedText &&
    suppression.matchedPathFingerprints.length ≤ 10000 &&
    isCanonicalOrder suppression.matchedPathFingerprints &&
    (suppression.matchedPathFingerprints.all fun fingerprint =>
      isFingerprint fingerprint && fingerprint ∈ pathFingerprints) &&
    validateEvidenceArray checks sources suppression.evidence &&
    stateAgrees suppression.state suppression.matchedPathFingerprints

/-- `sourceRegistry` reports nothing. -/
def validateSources : Bool :=
  sources.length ≤ maxDiagnosticsPerBundle && (sources.all fun source => isStableIdentifier source.id) &&
    decide (sources.map (·.id)).Nodup

def validateDiagnosticBundle (bundle : DiagnosticBundle) : Bool :=
  checks.json bundle sources && validateSources sources &&
    bundle.diagnostics.length ≤ maxDiagnosticsPerBundle &&
    bundle.diagnostics.all (validateDiagnostic checks sources) &&
    bundle.suppressions.length ≤ maxSuppressionsPerBundle &&
    bundle.suppressions.all
      (validateSuppression checks sources (bundle.diagnostics.map (·.pathFingerprint))) &&
    decide (entityIds bundle).Nodup

variable {checks sources} {bundle : DiagnosticBundle}

/-- What an accepted bundle is known for. -/
structure ValidBundle (checks : RecordChecks) (sources : List SourceDocument)
    (bundle : DiagnosticBundle) : Prop where
  diagnostics : ∀ diagnostic ∈ bundle.diagnostics, validateDiagnostic checks sources diagnostic = true
  suppressions : ∀ suppression ∈ bundle.suppressions,
    validateSuppression checks sources (bundle.diagnostics.map (·.pathFingerprint)) suppression = true
  entityIds : (entityIds bundle).Nodup

theorem validBundle (accepted : validateDiagnosticBundle checks sources bundle = true) :
    ValidBundle checks sources bundle := by
  simp only [validateDiagnosticBundle, Bool.and_eq_true, List.all_eq_true, decide_eq_true_eq]
    at accepted
  obtain ⟨⟨⟨⟨_, diagnostics⟩, _⟩, suppressions⟩, nodup⟩ := accepted
  exact ⟨diagnostics, suppressions, nodup⟩

theorem ValidBundle.diagnosticIds
    (valid : ValidBundle checks sources bundle) : (bundle.diagnostics.map (·.id)).Nodup := by
  have nodup := (List.nodup_append.mp valid.entityIds).1
  refine List.Nodup.sublist ?_ nodup
  induction bundle.diagnostics with
  | nil => exact List.Sublist.slnil
  | cons diagnostic rest ih =>
    rw [List.map_cons, List.flatMap_cons, diagnosticEntityIds, List.cons_append, List.cons_append]
    exact (ih.trans (List.sublist_append_right _ _)).cons_cons _

theorem ValidBundle.suppressionIds
    (valid : ValidBundle checks sources bundle) : (bundle.suppressions.map (·.id)).Nodup := by
  have nodup := (List.nodup_append.mp valid.entityIds).2.1
  refine List.Nodup.sublist ?_ nodup
  induction bundle.suppressions with
  | nil => exact List.Sublist.slnil
  | cons suppression rest ih =>
    rw [List.map_cons, List.flatMap_cons, suppressionEntityIds, List.cons_append]
    exact (ih.trans (List.sublist_append_right _ _)).cons_cons _

end DiagnosticValidation

end AgentContextLint
