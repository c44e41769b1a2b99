import AgentContextLint.Lib.Json
import AgentContextLint.Rules.RuleFamilies

/-!
# Canonical diagnostics

Model of `canonicalizeRuleDiagnostics` in `packages/rules/src/rule-scheduler.ts`: diagnostics are
filtered by the policy, grouped by their two fingerprints, and every group is merged into one
diagnostic. Where the source compares canonical JSON texts of records for equality, the records
are compared.

* `Merged` is what the diagnostic of a group has of its members, `merged_of_ok` establishes it.
-/

namespace AgentContextLint

open Utf16 Utf8 Metered Sorting Sha256 DiagnosticValidation

def Diagnostic.semanticFingerprint (diagnostic : Diagnostic) : Text :=
  diagnostic.fingerprints.semantic.value

namespace RuleScheduler

/-! ## Orders -/

def compareLocations : DiagnosticSourceLocation → DiagnosticSourceLocation → Ordering :=
  compareLex (comparingBytes (·.path)) <|
  compareLex (compareOn (·.range.start.byteOffset)) <|
  compareLex (compareOn (·.range.stop.byteOffset)) <|
  comparingBytes (·.sourceId)

def comparePrimaries : Diagnostic → Diagnostic → Ordering :=
  comparingWith compareLocations (·.primary)

def compareDiagnostics : Diagnostic → Diagnostic → Ordering :=
  compareLex comparePrimaries <|
  compareLex (comparingBytes (·.ruleId)) <|
  compareLex (comparingBytes (·.pathFingerprint)) <|
  compareLex (comparingBytes (·.semanticFingerprint)) <|
  comparingBytes (·.id)

def compareSuppressions : SuppressionRecord → SuppressionRecord → Ordering :=
  compareLex (comparingWith compareLocations (·.directive)) <|
  comparingBytes (·.id)

instance : Std.TransCmp compareLocations := by
  unfold compareLocations
  infer_instance

instance : Std.TransCmp comparePrimaries :=
  inferInstanceAs (Std.TransCmp (comparingWith compareLocations fun entry : Diagnostic =>
    entry.primary))

/-! ## Merging a group -/

def deduplicationKey (diagnostic : Diagnostic) : Text :=
  diagnostic.pathFingerprint ++ [0] ++ diagnostic.semanticFingerprint

def positionJson (position : SourcePosition) : Json :=
  .object [(js "byteOffset", .number position.byteOffset),
    (js "utf16Offset", .number position.utf16Offset), (js "line", .number position.line),
    (js "utf16Column", .number position.utf16Column)]

def locationJson (location : DiagnosticSourceLocation) : Json :=
  .object [(js "sourceId", .string location.sourceId), (js "path", .string location.path),
    (js "sourceDigest", .string location.sourceDigest),
    (js "range", .object [(js "sourceId", .string location.range.sourceId),
      (js "start", positionJson location.range.start),
      (js "end", positionJson location.range.stop)])]

def evidenceIdForPrimary (diagnostic : Diagnostic) : Text :=
  js "evidence:scheduler:" ++
    (sha256Hex (encode (locationJson diagnostic.primary).canonical)).take 24

/-- What the members of a group must agree on. -/
structure GroupIdentity where
  fingerprintBasis : DiagnosticFingerprintBasis
  fingerprints : DiagnosticFingerprints
  ruleId : Text
  ruleVersion : Text
  deriving DecidableEq

def groupIdentity (diagnostic : Diagnostic) : GroupIdentity :=
  ⟨diagnostic.fingerprintBasis, diagnostic.fingerprints, diagnostic.ruleId, diagnostic.ruleVersion⟩

abbrev EvidenceById := OrderedMap Text RelatedEvidence

def addEvidence (evidenceById : EvidenceById) (evidence : RelatedEvidence) :
    Except RuleSchedulerIssue EvidenceById := do
  refuseIf ((evidenceById.get? evidence.id).any fun previous => previous ≠ evidence)
    (schedulerIssue .invalidOutput "$output.diagnostics.related"
      "reuses a related-evidence ID for different evidence")
  pure (evidenceById.set evidence.id evidence)

/-- The evidence of a member of a group whose merged diagnostic is at `primary`. -/
def memberEvidence (primary : DiagnosticSourceLocation) (entry : Diagnostic) :
    List RelatedEvidence :=
  entry.related ++
    if compareLocations entry.primary primary = .eq then []
    else [⟨evidenceIdForPrimary entry, js "Duplicate diagnostic primary evidence",
      .source entry.primary⟩]

/-- Of evidence that differs in its identifiers only, the one with the least identifier. -/
def semanticEvidence (evidence : List RelatedEvidence) : List RelatedEvidence :=
  (evidence.foldl (fun (kept : OrderedMap RelatedEvidence RelatedEvidence) item =>
    let key := { item with id := [] }
    if (kept.get? key).all fun previous => compareBytes item.id previous.id = .lt then
      kept.set key item
    else kept) .empty).values

def severityRank : DiagnosticSeverity → Nat
  | .error => 3
  | .info => 1
  | .warning => 2

def highestSeverity (diagnostics : List Diagnostic) : DiagnosticSeverity :=
  diagnostics.foldl (fun highest entry =>
    if severityRank highest < severityRank entry.severity then entry.severity else highest) .info

def orderedGroup (diagnostics : List Diagnostic) : List Diagnostic :=
  sortBy (comparingBytes (·.id)) diagnostics

/-- The member whose primary location the merged diagnostic takes. -/
def earliest (diagnostics : List Diagnostic) : Option Diagnostic :=
  (sortBy comparePrimaries (orderedGroup diagnostics)).head?

def require {α : Type} (value : Option α) (issue : RuleSchedulerIssue) :
    Except RuleSchedulerIssue α :=
  value.elim (.error issue) .ok

/-- The identifiers in `evidenceById` differ, so the second comparison that the source gives its
sort of the evidence has nothing to decide. -/
def mergeDiagnosticGroup (diagnostics : List Diagnostic) : Except RuleSchedulerIssue Diagnostic := do
  let ordered := orderedGroup diagnostics
  let first ← require ordered.head?
    (schedulerIssue .invalidOutput "$output.diagnostics" "contains an empty group")
  refuseIf (∃ entry ∈ ordered, groupIdentity entry ≠ groupIdentity first)
    (schedulerIssue .invalidOutput "$output.diagnostics"
      "a fingerprint collision has incompatible identity data")
  refuseIf (∃ entry ∈ ordered, entry.message ≠ first.message)
    (schedulerIssue .invalidOutput "$output.diagnostics.message"
      "fingerprint duplicates contain different messages")
  let earliest ← require (earliest diagnostics)
    (schedulerIssue .invalidOutput "$output.diagnostics" "has no primary location")
  let evidenceById ← (ordered.flatMap (memberEvidence earliest.primary)).foldlM addEvidence .empty
  let evidence := semanticEvidence evidenceById.values
  refuseIf (maxRelatedEvidencePerDiagnostic < evidence.length)
    (schedulerIssue .resourceLimit "$output.diagnostics.related"
      "merged evidence exceeds the B04 per-diagnostic limit")
  refuseIf (∃ entry ∈ ordered, entry.suggestion ≠ first.suggestion)
    (schedulerIssue .invalidOutput "$output.diagnostics.suggestion"
      "fingerprint duplicates propose different suggestions or fix plans")
  pure { first with
    primary := earliest.primary
    related := sortBy (comparingBytes (·.id)) evidence
    severity := highestSeverity ordered }

/-! ## The policy -/

def applySeverity (policy : RuleSchedulerPolicy) (diagnostic : Diagnostic) : Option Diagnostic :=
  match policy.severityOverrides.get? diagnostic.ruleId with
  | none => some diagnostic
  | some .off => none
  | some (.on severity) => some { diagnostic with severity := severity }

/-- The diagnostics the policy keeps, in the canonical order. -/
def selectedDiagnostics (policy : RuleSchedulerPolicy) (diagnostics : List Diagnostic) :
    List Diagnostic :=
  sortBy compareDiagnostics (diagnostics.filterMap (applySeverity policy))

section Checks

variable (checks : RecordChecks) (sources : List SourceDocument)

def policyFilteredBundle (policy : RuleSchedulerPolicy) (rawBundle : DiagnosticBundle) :
    Except RuleSchedulerIssue DiagnosticBundle := do
  refuseIf (validateDiagnosticBundle checks sources rawBundle = false)
    (schedulerIssue .invalidOutput "$output" "does not satisfy the B04 diagnostic contract")
  refuseIf (∃ original ∈ rawBundle.diagnostics, isRegisteredRule original.ruleId = false)
    (schedulerIssue .invalidOutput "$output.diagnostics" "contains an unregistered rule")
  let candidate : DiagnosticBundle :=
    { diagnostics := selectedDiagnostics policy rawBundle.diagnostics
      suppressions := sortBy compareSuppressions rawBundle.suppressions }
  refuseIf (validateDiagnosticBundle checks sources candidate = false)
    (schedulerIssue .invalidOutput "$output" "policy output failed B04 validation")
  pure candidate

def fingerprintGroups (diagnostics : List Diagnostic) : OrderedMap Text (List Diagnostic) :=
  .group deduplicationKey diagnostics

def canonicalizeRuleDiagnostics (policy : RuleSchedulerPolicy) (rawBundle : DiagnosticBundle) :
    Except RuleSchedulerIssue DiagnosticBundle := do
  let filtered ← policyFilteredBundle checks sources policy rawBundle
  let groups := fingerprintGroups filtered.diagnostics
  let merged ← (sortBy compareBytes groups.keys).mapM fun key =>
    mergeDiagnosticGroup (groups.members key)
  let candidate : DiagnosticBundle :=
    { filtered with diagnostics := sortBy compareDiagnostics merged }
  refuseIf (validateDiagnosticBundle checks sources candidate = false)
    (schedulerIssue .invalidOutput "$output" "canonical output failed B04 validation")
  pure candidate

end Checks

variable {group : List Diagnostic}

/-! ## What canonical diagnostics keep -/

theorem require_eq_ok {α : Type} {value : Option α} {issue : RuleSchedulerIssue} {a : α} :
    require value issue = .ok a ↔ value = some a := by
  cases value with
  | none => exact ⟨fun eq => (by cases eq), fun eq => (by cases eq)⟩
  | some b =>
    exact ⟨fun eq => congrArg some (Except.ok.inj eq),
      fun eq => congrArg Except.ok (Option.some.inj eq)⟩

/-- What is known of the diagnostic that a group was merged into. -/
structure Merged (group : List Diagnostic) (merged : Diagnostic) : Prop where
  identity : ∀ entry ∈ group, groupIdentity entry = groupIdentity merged
  primary : ∃ entry, earliest group = some entry ∧ merged.primary = entry.primary

variable {merged : Diagnostic}

theorem merged_of_ok (ok : mergeDiagnosticGroup group = .ok merged) : Merged group merged := by
  simp only [mergeDiagnosticGroup, bind_eq_ok, refuseIf_eq_ok, require_eq_ok, pure, Except.pure,
    Except.ok.injEq] at ok
  obtain ⟨first, _, _, agree, _, _, head, isEarliest, _, _, _, _, _, _, rfl⟩ := ok
  constructor
  case identity =>
    intro entry member
    by_contra differs
    exact agree ⟨entry, (mem_sortBy _).mpr member, differs⟩
  case primary => exact ⟨head, isEarliest, rfl⟩

variable {entry : Diagnostic}

theorem Merged.fingerprints (merging : Merged group merged) (member : entry ∈ group) :
    entry.pathFingerprint = merged.pathFingerprint ∧
      entry.semanticFingerprint = merged.semanticFingerprint ∧ entry.ruleId = merged.ruleId := by
  have same := merging.identity entry member
  have fingerprints : entry.fingerprints = merged.fingerprints := congrArg (·.fingerprints) same
  refine ⟨?_, ?_, congrArg (·.ruleId) same⟩
  · rw [Diagnostic.pathFingerprint, Diagnostic.pathFingerprint, fingerprints]
  · rw [Diagnostic.semanticFingerprint, Diagnostic.semanticFingerprint, fingerprints]

theorem mem_of_earliest (found : earliest group = some entry) : entry ∈ group := by
  have member := List.mem_of_head? found
  rwa [mem_sortBy, orderedGroup, mem_sortBy] at member

theorem Merged.deduplicationKey (merging : Merged group merged) (member : entry ∈ group) :
    RuleScheduler.deduplicationKey entry = RuleScheduler.deduplicationKey merged := by
  obtain ⟨path, semantic, _⟩ := merging.fingerprints member
  rw [RuleScheduler.deduplicationKey, RuleScheduler.deduplicationKey, path, semantic]

/-- The diagnostics of a list that share the fingerprints of one. -/
def groupOf (diagnostics : List Diagnostic) (diagnostic : Diagnostic) : List Diagnostic :=
  diagnostics.filter fun other => deduplicationKey other = deduplicationKey diagnostic

/-- What a canonical bundle has of the diagnostics `reported` that it was made of. -/
structure Canonicalized (reported canonical : List Diagnostic) : Prop where
  total : ∀ diagnostic ∈ reported, ∃ merged ∈ canonical, Merged (groupOf reported diagnostic) merged
  origin : ∀ merged ∈ canonical, ∃ diagnostic ∈ reported,
    Merged (groupOf reported diagnostic) merged
  keys : (canonical.map deduplicationKey).Nodup

section Spec

variable {checks : RecordChecks} {sources : List SourceDocument} {policy : RuleSchedulerPolicy}
  {rawBundle filtered canonical : DiagnosticBundle}

theorem policyFilteredBundle_eq_ok
    (ok : policyFilteredBundle checks sources policy rawBundle = .ok filtered) :
    filtered.diagnostics = selectedDiagnostics policy rawBundle.diagnostics ∧
      filtered.suppressions = sortBy compareSuppressions rawBundle.suppressions ∧
      ValidBundle checks sources filtered := by
  simp only [policyFilteredBundle, check_bind_eq_ok, refuseIf_eq_ok, Bool.not_eq_false, pure,
    Except.pure, Except.ok.injEq] at ok
  obtain ⟨_, _, valid, rfl⟩ := ok
  exact ⟨rfl, rfl, validBundle valid⟩

/-- The canonical diagnostics are one for each pair of fingerprints of the selected ones. -/
theorem canonicalizeRuleDiagnostics_eq_ok
    (ok : canonicalizeRuleDiagnostics checks sources policy rawBundle = .ok canonical) :
    Canonicalized (selectedDiagnostics policy rawBundle.diagnostics) canonical.diagnostics ∧
      canonical.suppressions = sortBy compareSuppressions rawBundle.suppressions ∧
      ∀ diagnostic ∈ selectedDiagnostics policy rawBundle.diagnostics,
        validateDiagnostic checks sources diagnostic = true := by
  simp only [canonicalizeRuleDiagnostics, bind_eq_ok, refuseIf_eq_ok, Bool.not_eq_false, pure,
    Except.pure, Except.ok.injEq] at ok
  obtain ⟨filtered, filters, merged, merges, _, _, rfl⟩ := ok
  obtain ⟨selected, suppressions, valid⟩ := policyFilteredBundle_eq_ok filters
  rw [← selected]
  refine ⟨?_, suppressions, valid.diagnostics⟩
  have made : ∀ key m, mergeDiagnosticGroup ((fingerprintGroups filtered.diagnostics).members key) =
      .ok m → deduplicationKey m = key ∧
        ∃ diagnostic ∈ filtered.diagnostics, deduplicationKey diagnostic = key ∧
          Merged (groupOf filtered.diagnostics diagnostic) m := by
    intro key m mergesKey
    have merging := merged_of_ok mergesKey
    obtain ⟨entry, isEarliest, _⟩ := merging.primary
    have inGroup := mem_of_earliest isEarliest
    rw [fingerprintGroups, OrderedMap.members_group] at merging inGroup
    obtain ⟨member, sameKey⟩ := List.mem_filter.mp inGroup
    have sameKey : deduplicationKey entry = key := of_decide_eq_true sameKey
    refine ⟨(merging.deduplicationKey inGroup).symm.trans sameKey, entry, member, sameKey, ?_⟩
    rwa [groupOf, sameKey]
  have keys : merged.map deduplicationKey =
      sortBy compareBytes (fingerprintGroups filtered.diagnostics).keys := by
    have same := (mapM_eq_ok.mp merges).imp fun key m mergesKey => (made key m mergesKey).1.symm
    rw [← List.forall₂_eq_eq_eq]
    exact (List.forall₂_map_right_iff.mpr same).flip.imp fun _ _ eq => eq.symm
  constructor
  case total =>
    intro diagnostic member
    have inKeys : deduplicationKey diagnostic ∈ merged.map deduplicationKey := by
      rw [keys, mem_sortBy]
      exact (OrderedMap.mem_keys_group _).mpr ⟨diagnostic, member, rfl⟩
    obtain ⟨m, inMerged, sameKey⟩ := List.mem_map.mp inKeys
    obtain ⟨key, _, mergesKey⟩ := exists_of_mem_mapM merges inMerged
    obtain ⟨keyOf, other, _, otherKey, merging⟩ := made key m mergesKey
    refine ⟨m, (mem_sortBy _).mpr inMerged, ?_⟩
    rwa [groupOf, ← sameKey, keyOf, ← otherKey]
  case origin =>
    intro m member
    obtain ⟨key, _, mergesKey⟩ := exists_of_mem_mapM merges ((mem_sortBy _).mp member)
    obtain ⟨_, diagnostic, inFiltered, _, merging⟩ := made key m mergesKey
    exact ⟨diagnostic, inFiltered, merging⟩
  case keys =>
    have perm := (sortBy_perm compareDiagnostics merged).map deduplicationKey
    rw [perm.nodup_iff, keys, nodup_sortBy]
    exact (fingerprintGroups filtered.diagnostics).nodup

end Spec

end RuleScheduler

end AgentContextLint
