import AgentContextLint.Rules.RuleReport
import AgentContextLint.Syntax.SuppressionPartition

/-!
# Matched and hidden diagnostics

Directives are matched by source, line and rule, but a report hides diagnostics by the path
fingerprints of the matched ones, and fingerprints do not have the line. A report is `Reconciled`
exactly for diagnostics that are `Separated`.
-/

namespace AgentContextLint.RuleScheduler

open Utf16 Utf8 Metered Sorting DiagnosticValidation Suppression List
open SyntaxStructure (applicableBundle finalizeScheduledSyntaxSuppressions)

variable (directives : List ParsedSuppressionDirective)

/-- Some directive has the source, the line and the rule of the diagnostic. -/
def IsTargeted (diagnostic : Diagnostic) : Prop :=
  ∃ directive ∈ directives, Targets directive diagnostic

/-- A diagnostic with the fingerprints and at the place of another one. -/
structure SameFinding (diagnostic other : Diagnostic) : Prop where
  ruleId : diagnostic.ruleId = other.ruleId
  path : diagnostic.pathFingerprint = other.pathFingerprint
  semantic : diagnostic.semanticFingerprint = other.semanticFingerprint
  primary : diagnostic.primary = other.primary

/-- The report hides exactly the matched findings, each on the target line of a directive, and
counts what it hides. -/
structure Reconciled (directives : List ParsedSuppressionDirective)
    (matched : SuppressionMatchResult) (report : RuleReport) : Prop where
  hidden_iff : ∀ diagnostic ∈ report.bundle.diagnostics,
    diagnostic ∈ report.views.suppressed ↔
      ∃ entry ∈ matched.suppressedDiagnostics, SameFinding entry.diagnostic diagnostic
  on_target : ∀ diagnostic ∈ report.views.suppressed, IsTargeted directives diagnostic
  count : report.views.summary.suppressedCount = report.views.suppressed.length

/-- No reported diagnostic has the path fingerprint of a scheduled one with a target but its
semantic fingerprint, and the earliest of those that have both is a scheduled one with a
target. -/
def Separated (scheduled reported : List Diagnostic) : Prop :=
  ∀ diagnostic ∈ scheduled, IsTargeted directives diagnostic →
    (∀ other ∈ reported, other.pathFingerprint = diagnostic.pathFingerprint →
      other.semanticFingerprint = diagnostic.semanticFingerprint) ∧
    ∃ head, earliest (reported.filter fun other =>
        other.pathFingerprint = diagnostic.pathFingerprint) = some head ∧
      ∃ other ∈ scheduled, IsTargeted directives other ∧ SameFinding other head

theorem IsTargeted.of_sameFinding {directives : List ParsedSuppressionDirective}
    {diagnostic other : Diagnostic} (targeted : IsTargeted directives diagnostic)
    (same : SameFinding diagnostic other) : IsTargeted directives other := by
  obtain ⟨directive, member, targets⟩ := targeted
  refine ⟨directive, member, ?_⟩
  rwa [Targets, ← same.primary, ← same.ruleId]

/-! ## Matched fingerprints -/

section Matched

variable {checks : RecordChecks} {bundle : DiagnosticBundle} {sources : List SourceDocument}
  {directives : List ParsedSuppressionDirective} {matched : SuppressionMatchResult}

section

variable (ok : matchSuppressionDirectives checks bundle directives sources = .ok matched)

include ok

theorem suppressedDiagnostics_map_eq :
    matched.suppressedDiagnostics.map (·.diagnostic) = bundle.diagnostics.filter fun diagnostic =>
      (firstTarget (sortBy compareDirectives directives) diagnostic).isSome := by
  obtain ⟨_, rfl, _⟩ := matchSuppressionDirectives_eq_ok ok
  simp only [resolveDirectives, suppressedDiagnostics_eq, ownerOf_ownerIndex]
  exact suppressed_map_eq _ _

theorem mem_suppressedDiagnostics_iff {diagnostic : Diagnostic} :
    (∃ entry ∈ matched.suppressedDiagnostics, entry.diagnostic = diagnostic) ↔
      diagnostic ∈ bundle.diagnostics ∧ IsTargeted directives diagnostic := by
  rw [← mem_map, suppressedDiagnostics_map_eq ok, mem_filter, isSome_firstTarget]
  rfl

end

variable {fingerprint : Text}

theorem mem_matchedPathFingerprints_iff {matching : OrderedMap Text (List Text)}
    {directive : ParsedSuppressionDirective} :
    (resolveRecord matching directive).state = .suppressed ∧
        fingerprint ∈ (resolveRecord matching directive).matchedPathFingerprints ↔
      fingerprint ∈ matching.members directive.record.id := by
  have matchedOf : fingerprint ∈ (resolveRecord matching directive).matchedPathFingerprints ↔
      fingerprint ∈ matching.members directive.record.id := by
    rw [resolveRecord, mem_sortBy, mem_eraseDups]
  rw [matchedOf]
  refine ⟨fun both => both.2, fun member => ⟨?_, member⟩⟩
  rw [resolveRecord]
  exact if_neg (ne_nil_of_mem (matchedOf.mpr member))

theorem mem_suppressedFingerprints_iff
    (ok : matchSuppressionDirectives checks bundle directives sources = .ok matched) :
    fingerprint ∈ suppressedFingerprints matched.bundle ↔ ∃ diagnostic ∈ bundle.diagnostics,
        IsTargeted directives diagnostic ∧ diagnostic.pathFingerprint = fingerprint := by
  obtain ⟨_, rfl, _⟩ := matchSuppressionDirectives_eq_ok ok
  rw [suppressedFingerprints, mem_eraseDups, mem_flatMap]
  simp only [resolveDirectives, mem_filter, decide_eq_true_eq]
  constructor
  · intro found
    obtain ⟨_, ⟨inRecords, suppressed⟩, member⟩ := found
    obtain ⟨directive, _, rfl⟩ := mem_map.mp inRecords
    have member := mem_matchedPathFingerprints_iff.mp ⟨suppressed, member⟩
    rw [members_matched] at member
    obtain ⟨diagnostic, attributed, same⟩ := mem_map.mp member
    obtain ⟨inBundle, attributed⟩ := mem_filter.mp attributed
    rw [ownerOf_ownerIndex] at attributed
    exact ⟨diagnostic, inBundle, isSome_firstTarget.mp (Option.isSome_of_any attributed), same⟩
  · intro found
    obtain ⟨diagnostic, inBundle, targeted, same⟩ := found
    obtain ⟨owner, found⟩ := Option.isSome_iff_exists.mp (isSome_firstTarget.mpr targeted)
    have member : fingerprint ∈
        (matchDiagnostics (ownerIndex (sortBy compareDirectives directives))
          bundle.diagnostics).matched.members owner.record.id := by
      rw [members_matched]
      refine mem_map.mpr ⟨diagnostic, mem_filter.mpr ⟨inBundle, ?_⟩, same⟩
      rw [ownerOf_ownerIndex, found, Option.any_some]
      exact decide_eq_true rfl
    obtain ⟨suppressed, member⟩ := mem_matchedPathFingerprints_iff.mpr member
    exact ⟨_, ⟨mem_map_of_mem (mem_of_find?_eq_some found), suppressed⟩, member⟩

end Matched

/-! ## Counting hidden diagnostics -/

theorem nodup_suppressedFingerprints (bundle : DiagnosticBundle) :
    (suppressedFingerprints bundle).Nodup := nodup_eraseDups _

theorem mem_suppressedFingerprints_of_perm {first second : DiagnosticBundle}
    (perm : first.suppressions.Perm second.suppressions) {fingerprint : Text} :
    fingerprint ∈ suppressedFingerprints first ↔ fingerprint ∈ suppressedFingerprints second := by
  rw [suppressedFingerprints, suppressedFingerprints, mem_eraseDups, mem_eraseDups]
  exact ((perm.filter _).flatMap_right _).mem_iff

/-- A list without repetitions has the length of a list with the same members exactly if that one
has no repetitions either. -/
theorem length_eq_iff_nodup {α : Type} {members list : List α} (nodup : members.Nodup)
    (same : ∀ x, x ∈ members ↔ x ∈ list) : members.length = list.length ↔ list.Nodup := by
  constructor
  · intro length
    have subperm : members.Subperm list := nodup.subperm fun x => (same x).mp
    exact (subperm.perm_of_length_le length.ge).nodup_iff.mp nodup
  · intro other
    exact ((perm_ext_iff_of_nodup nodup other).mpr same).length_eq

/-! ## The two views -/

theorem deduplicationKey_eq_iff {first second : Diagnostic}
    (length : first.pathFingerprint.length = second.pathFingerprint.length) :
    deduplicationKey first = deduplicationKey second ↔
      first.pathFingerprint = second.pathFingerprint ∧
        first.semanticFingerprint = second.semanticFingerprint := by
  rw [deduplicationKey, deduplicationKey, append_assoc, append_assoc]
  constructor
  · intro same
    obtain ⟨path, rest⟩ := append_inj same length
    exact ⟨path, tail_eq_of_cons_eq rest⟩
  · intro both
    rw [both.1, both.2]

section Views

variable {directives : List ParsedSuppressionDirective} {scheduled reported : List Diagnostic}
  {canonical : DiagnosticBundle}

/-- What relates a canonical bundle to the scheduled and the reported diagnostics. -/
structure Hiding (directives : List ParsedSuppressionDirective)
    (scheduled reported : List Diagnostic) (canonical : DiagnosticBundle) : Prop where
  canonicalized : Canonicalized reported canonical.diagnostics
  included : ∀ diagnostic ∈ scheduled, diagnostic ∈ reported
  lengths : ∀ diagnostic ∈ reported, diagnostic.pathFingerprint.length = 64
  hidden : ∀ fingerprint, fingerprint ∈ suppressedFingerprints canonical ↔
    ∃ diagnostic ∈ scheduled,
      IsTargeted directives diagnostic ∧ diagnostic.pathFingerprint = fingerprint

theorem mem_groupOf_self {diagnostics : List Diagnostic} {diagnostic : Diagnostic}
    (member : diagnostic ∈ diagnostics) : diagnostic ∈ groupOf diagnostics diagnostic :=
  mem_filter.mpr ⟨member, decide_eq_true rfl⟩

section

variable (setup : Hiding directives scheduled reported canonical)
  {threshold : RuleSchedulerFailureThreshold}

include setup

theorem Hiding.mem_suppressed_iff {diagnostic : Diagnostic} :
    diagnostic ∈ (summaryOf canonical threshold).suppressed ↔ diagnostic ∈ canonical.diagnostics ∧
        ∃ other ∈ scheduled, IsTargeted directives other ∧
          other.pathFingerprint = diagnostic.pathFingerprint := by
  have views : (summaryOf canonical threshold).suppressed =
      canonical.diagnostics.filter (isHidden canonical) := rfl
  rw [views, mem_filter, isHidden, decide_eq_true_eq, setup.hidden]

/-- The count is right exactly if no two hidden diagnostics share a path fingerprint. -/
theorem Hiding.count_iff : (summaryOf canonical threshold).summary.suppressedCount =
        (summaryOf canonical threshold).suppressed.length ↔
      ((summaryOf canonical threshold).suppressed.map (·.pathFingerprint)).Nodup := by
  have same : ∀ fingerprint, fingerprint ∈ suppressedFingerprints canonical ↔
      fingerprint ∈ (summaryOf canonical threshold).suppressed.map (·.pathFingerprint) := by
    intro fingerprint
    rw [mem_map]
    constructor
    · intro member
      obtain ⟨diagnostic, inScheduled, _, rfl⟩ := (setup.hidden _).mp member
      have inReported := setup.included _ inScheduled
      obtain ⟨merged, inCanonical, merging⟩ := setup.canonicalized.total _ inReported
      have path := (merging.fingerprints (mem_groupOf_self inReported)).1
      refine ⟨merged, mem_filter.mpr ⟨inCanonical, ?_⟩, path.symm⟩
      rwa [isHidden, decide_eq_true_eq, ← path]
    · intro found
      obtain ⟨merged, inSuppressed, rfl⟩ := found
      exact of_decide_eq_true (mem_filter.mp inSuppressed).2
  rw [← length_eq_iff_nodup (nodup_suppressedFingerprints canonical) same, length_map]
  rfl

/-- Where a path fingerprint has one semantic fingerprint, its diagnostics are one group. -/
theorem Hiding.groupOf_eq {diagnostic other : Diagnostic} (inReported : other ∈ reported)
    (path : other.pathFingerprint = diagnostic.pathFingerprint)
    (separated : ∀ another ∈ reported, another.pathFingerprint = diagnostic.pathFingerprint →
      another.semanticFingerprint = diagnostic.semanticFingerprint) :
    groupOf reported other =
      reported.filter fun another => another.pathFingerprint = diagnostic.pathFingerprint := by
  apply filter_congr
  intro another member
  have length := (setup.lengths another member).trans (setup.lengths other inReported).symm
  rw [decide_eq_decide, deduplicationKey_eq_iff length, path]
  refine ⟨fun both => both.1, fun same => ⟨same, ?_⟩⟩
  rw [separated another member same, separated other inReported path]

theorem Hiding.separated (hidden_iff : ∀ diagnostic ∈ canonical.diagnostics,
      diagnostic ∈ (summaryOf canonical threshold).suppressed ↔
        ∃ other ∈ scheduled, IsTargeted directives other ∧ SameFinding other diagnostic)
    (count : (summaryOf canonical threshold).summary.suppressedCount =
      (summaryOf canonical threshold).suppressed.length) :
    Separated directives scheduled reported := by
  have nodup := setup.count_iff.mp count
  intro diagnostic member targeted
  have hides : ∀ other ∈ reported, other.pathFingerprint = diagnostic.pathFingerprint →
      ∀ merged ∈ canonical.diagnostics, Merged (groupOf reported other) merged →
        merged ∈ (summaryOf canonical threshold).suppressed ∧
          merged.pathFingerprint = diagnostic.pathFingerprint := by
    intro other inReported path merged inCanonical merging
    have same := (merging.fingerprints (mem_groupOf_self inReported)).1.symm.trans path
    exact ⟨setup.mem_suppressed_iff.mpr ⟨inCanonical, diagnostic, member, targeted, same.symm⟩, same⟩
  have inReported := setup.included _ member
  obtain ⟨merged, inCanonical, merging⟩ := setup.canonicalized.total _ inReported
  obtain ⟨suppressed, path⟩ := hides _ inReported rfl merged inCanonical merging
  have semantic := (merging.fingerprints (mem_groupOf_self inReported)).2.1
  have separated : ∀ other ∈ reported, other.pathFingerprint = diagnostic.pathFingerprint →
      other.semanticFingerprint = diagnostic.semanticFingerprint := by
    intro other otherReported otherPath
    obtain ⟨another, anotherCanonical, anotherMerging⟩ :=
      setup.canonicalized.total _ otherReported
    obtain ⟨anotherSuppressed, anotherEq⟩ :=
      hides _ otherReported otherPath another anotherCanonical anotherMerging
    have same : another = merged :=
      inj_on_of_nodup_map nodup anotherSuppressed suppressed (anotherEq.trans path.symm)
    rw [(anotherMerging.fingerprints (mem_groupOf_self otherReported)).2.1, same, semantic]
  refine ⟨separated, ?_⟩
  obtain ⟨head, isEarliest, atHead⟩ := merging.primary
  obtain ⟨ruleId, semanticHead⟩ := (merging.fingerprints (mem_of_earliest isEarliest)).2.symm
  obtain ⟨other, inScheduled, otherTargeted, same⟩ := (hidden_iff _ inCanonical).mp suppressed
  rw [setup.groupOf_eq inReported rfl separated] at isEarliest
  have headPath := of_decide_eq_true (mem_filter.mp (mem_of_earliest isEarliest)).2
  refine ⟨head, isEarliest, other, inScheduled, otherTargeted, ?_⟩
  exact ⟨same.ruleId.trans ruleId.symm, same.path.trans (path.trans headPath.symm),
    same.semantic.trans semanticHead.symm, same.primary.trans atHead⟩

theorem Hiding.reconciled (separated : Separated directives scheduled reported) :
    (∀ diagnostic ∈ canonical.diagnostics, diagnostic ∈ (summaryOf canonical threshold).suppressed ↔
        ∃ other ∈ scheduled, IsTargeted directives other ∧ SameFinding other diagnostic) ∧
      (summaryOf canonical threshold).summary.suppressedCount =
        (summaryOf canonical threshold).suppressed.length := by
  constructor
  · intro merged inCanonical
    rw [setup.mem_suppressed_iff]
    constructor
    · intro hidden
      obtain ⟨_, diagnostic, inScheduled, targeted, path⟩ := hidden
      obtain ⟨alone, head, isEarliest, other, otherScheduled, otherTargeted, same⟩ :=
        separated diagnostic inScheduled targeted
      obtain ⟨origin, inReported, merging⟩ := setup.canonicalized.origin _ inCanonical
      have originPath := (merging.fingerprints (mem_groupOf_self inReported)).1.trans path.symm
      have group := setup.groupOf_eq inReported originPath alone
      obtain ⟨entry, isFirst, atEntry⟩ := merging.primary
      have isHead : entry = head := by
        rw [group, isEarliest] at isFirst
        exact (Option.some.inj isFirst).symm
      obtain ⟨path, semantic, ruleId⟩ := merging.fingerprints (mem_of_earliest isFirst)
      subst isHead
      exact ⟨other, otherScheduled, otherTargeted, same.ruleId.trans ruleId, same.path.trans path,
        same.semantic.trans semantic, same.primary.trans atEntry.symm⟩
    · intro found
      obtain ⟨other, inScheduled, targeted, same⟩ := found
      exact ⟨inCanonical, other, inScheduled, targeted, same.path⟩
  · rw [setup.count_iff]
    have nodup : (summaryOf canonical threshold).suppressed.Nodup :=
      (Nodup.of_map _ setup.canonicalized.keys).filter _
    apply nodup.map_on
    intro first inFirst second inSecond path
    obtain ⟨firstCanonical, diagnostic, inScheduled, targeted, firstPath⟩ :=
      setup.mem_suppressed_iff.mp inFirst
    obtain ⟨secondCanonical, _⟩ := setup.mem_suppressed_iff.mp inSecond
    have alone := (separated diagnostic inScheduled targeted).1
    have semantic : ∀ merged ∈ canonical.diagnostics,
        merged.pathFingerprint = diagnostic.pathFingerprint →
          merged.semanticFingerprint = diagnostic.semanticFingerprint := by
      intro merged inCanonical same
      obtain ⟨origin, inReported, merging⟩ := setup.canonicalized.origin _ inCanonical
      obtain ⟨mergedPath, mergedSemantic, _⟩ := merging.fingerprints (mem_groupOf_self inReported)
      rw [← mergedSemantic]
      exact alone origin inReported (mergedPath.trans same)
    apply inj_on_of_nodup_map setup.canonicalized.keys firstCanonical secondCanonical
    rw [deduplicationKey, deduplicationKey, path, semantic first firstCanonical firstPath.symm,
      semantic second secondCanonical (path.symm.trans firstPath.symm)]

end

end Views

/-! ## The pipeline -/

section Report

variable {checks : RecordChecks} {policy : RuleSchedulerPolicy} {maximumDiagnostics : Nat}
  {evaluation : SyntaxStructureEvaluation} {rawBundle : DiagnosticBundle} {report : RuleReport}
  {diagnostic : Diagnostic} {diagnostics : List Diagnostic}

theorem applySeverity_of_mem_selected (member : diagnostic ∈ selectedDiagnostics policy diagnostics) :
    applySeverity policy diagnostic = some diagnostic := by
  rw [selectedDiagnostics, mem_sortBy, mem_filterMap] at member
  obtain ⟨original, _, applied⟩ := member
  unfold applySeverity at applied ⊢
  cases override : policy.severityOverrides.get? original.ruleId with
  | none =>
    rw [override] at applied
    cases applied
    rw [override]
  | some selected =>
    rw [override] at applied
    cases selected with
    | off => cases applied
    | on severity =>
      cases applied
      dsimp only
      rw [override]

theorem mem_selectedDiagnostics (member : diagnostic ∈ diagnostics)
    (applied : applySeverity policy diagnostic = some diagnostic) :
    diagnostic ∈ selectedDiagnostics policy diagnostics :=
  (mem_sortBy _).mpr (mem_filterMap.mpr ⟨diagnostic, member, applied⟩)

theorem length_pathFingerprint {sources : List SourceDocument}
    (valid : validateDiagnostic checks sources diagnostic = true) :
    diagnostic.pathFingerprint.length = 64 := by
  simp only [validateDiagnostic, validateFingerprints, isFingerprint, Bool.and_eq_true,
    decide_eq_true_eq] at valid
  exact valid.2.1.1.1.1.2.1

theorem hiding_of_ok
    (ok : reportDiagnostics checks policy maximumDiagnostics evaluation rawBundle = .ok report) :
    ∃ filtered finalized matched,
      policyFilteredBundle checks evaluation.sources policy rawBundle = .ok filtered ∧
      finalizeScheduledSyntaxSuppressions checks evaluation filtered.diagnostics =
        .ok finalized ∧
      matchSuppressionDirectives checks
        (applicableBundle evaluation filtered.diagnostics) evaluation.directives
          evaluation.sources = .ok matched ∧
      report.views = summaryOf report.bundle policy.failureThreshold ∧
      Hiding evaluation.directives filtered.diagnostics
        (selectedDiagnostics policy finalized.bundle.diagnostics) report.bundle := by
  simp only [reportDiagnostics, bind_eq_ok, mapError_eq_ok, pure, Except.pure,
    Except.ok.injEq] at ok
  obtain ⟨filtered, filters, finalized, finalizes, _, _, canonical, canonicalizes, rfl⟩ := ok
  obtain ⟨matched, matching, suppressions, kept⟩ :=
    SyntaxStructure.finalizeScheduledSyntaxSuppressions_eq_ok finalizes
  obtain ⟨selected, _, _⟩ := policyFilteredBundle_eq_ok filters
  obtain ⟨canonicalized, sorted, valid⟩ := canonicalizeRuleDiagnostics_eq_ok canonicalizes
  have inMatched : ∀ diagnostic, diagnostic ∈ matched.bundle.diagnostics ↔
      diagnostic ∈ filtered.diagnostics := by
    obtain ⟨_, rfl, _⟩ := matchSuppressionDirectives_eq_ok matching
    exact fun _ => mem_sortBy _
  refine ⟨filtered, finalized, matched, filters, finalizes, matching, rfl, ?_⟩
  constructor
  case canonicalized => exact canonicalized
  case included =>
    intro diagnostic member
    apply mem_selectedDiagnostics (kept diagnostic ((inMatched diagnostic).mpr member))
    rw [selected] at member
    exact applySeverity_of_mem_selected member
  case lengths => exact fun diagnostic member => length_pathFingerprint (valid diagnostic member)
  case hidden =>
    intro fingerprint
    have perm : canonical.suppressions.Perm matched.bundle.suppressions := by
      rw [sorted, suppressions]
      exact sortBy_perm _ _
    rw [mem_suppressedFingerprints_of_perm perm, mem_suppressedFingerprints_iff matching]
    simp only [applicableBundle, mem_sortBy]

end Report

/-! ## Two lines with one path fingerprint -/

def lineEvaluation : SyntaxStructureEvaluation where
  bundle := ⟨[], [(lineDirective "s1" 0).record]⟩
  directives := [lineDirective "s1" 0]
  sources := []

/-- Two diagnostics of one path fingerprint, one on line 1 and one on line 3. -/
def linePairBundle : DiagnosticBundle where
  diagnostics := [lineDiagnostic "d1" "x" 1, lineDiagnostic "d2" "y" 3]
  suppressions := [(lineDirective "s1" 0).record]

def linePairReport : Except RuleSchedulerIssue RuleReport :=
  reportDiagnostics acceptingChecks ⟨.error, .empty⟩ maxDiagnosticsPerBundle lineEvaluation
    linePairBundle

/-- The directive hides both diagnostics, and the summary counts one. -/
theorem linePairReport_eq_ok :
    ∃ report, linePairReport = .ok report ∧ report.views.summary.suppressedCount = 1 ∧
      report.views.suppressed.map (·.primary.range.start.line) = [1, 3] := by
  have run : linePairReport.map (fun report => (report.views.summary.suppressedCount,
      report.views.suppressed.map fun diagnostic => diagnostic.primary.range.start.line)) =
        .ok (1, [1, 3]) := by
    decide +kernel
  obtain ⟨report, ok, values⟩ := eq_ok_of_map run
  exact ⟨report, ok, congrArg (·.1) values, congrArg (·.2) values⟩

end AgentContextLint.RuleScheduler
