import AgentContextLint.Syntax.Suppression

/-!
# Suppressed and visible diagnostics

What a completed `matchSuppressionDirectives` says of every diagnostic and of every directive.

* `Partition` is this as one structure; `matchSuppressionDirectives_partition` establishes it.
* That a record is `unused` exactly if nothing was attributed to its directive needs the records
  to have different identifiers, which the validation of the output sees to.
-/

namespace AgentContextLint.Suppression

open Utf16 Utf8 Metered Sorting DiagnosticValidation List

variable {checks : RecordChecks} {bundle : DiagnosticBundle} {sources : List SourceDocument}
  {directives parsed : List ParsedSuppressionDirective} {result : SuppressionMatchResult}

/-- The outcome of matching `diagnostics` against `directives`. -/
structure Partition (directives : List ParsedSuppressionDirective) (diagnostics : List Diagnostic)
    (result : SuppressionMatchResult) : Prop where
  kept : result.bundle.diagnostics = diagnostics
  /-- Together the views have every diagnostic once. -/
  perm : (result.suppressedDiagnostics.map (·.diagnostic) ++ result.visibleDiagnostics).Perm
    diagnostics
  disjoint : ∀ entry ∈ result.suppressedDiagnostics, entry.diagnostic ∉ result.visibleDiagnostics
  suppressed_order : (result.suppressedDiagnostics.map (·.diagnostic)).Sublist diagnostics
  visible_order : result.visibleDiagnostics.Sublist diagnostics
  suppressed_iff : ∀ diagnostic ∈ diagnostics,
    diagnostic ∈ result.suppressedDiagnostics.map (·.diagnostic) ↔
      ∃ directive ∈ directives, Targets directive diagnostic
  /-- The first directive that targets a diagnostic has it. -/
  owner : ∀ entry ∈ result.suppressedDiagnostics, ∃ directive,
    firstTarget (sortBy compareDirectives directives) entry.diagnostic = some directive ∧
      entry.suppressionId = directive.record.id
  /-- Each directive has one record. -/
  records : result.bundle.suppressions.map (·.id) =
    (sortBy compareDirectives directives).map (·.record.id)
  ids : (result.bundle.suppressions.map (·.id)).Nodup
  unused_iff : ∀ directive ∈ directives, ∀ record ∈ result.bundle.suppressions,
    record.id = directive.record.id → (record.state = .unused ↔
      ∀ diagnostic ∈ diagnostics,
        firstTarget (sortBy compareDirectives directives) diagnostic ≠ some directive)
  resolved : ∀ record ∈ result.bundle.suppressions,
    record.state = .unused ∨ record.state = .suppressed

theorem matchSuppressionDirectives_eq_ok
    (ok : matchSuppressionDirectives checks bundle directives sources = .ok result) :
    validateDiagnosticBundle checks sources bundle = true ∧
      result = resolveDirectives bundle (sortBy compareDirectives directives) ∧
      validateDiagnosticBundle checks sources result.bundle = true := by
  simp only [matchSuppressionDirectives, check_bind_eq_ok, failIf_eq_ok, Bool.not_eq_false, pure,
    Except.pure, Except.ok.injEq] at ok
  obtain ⟨_, valid, _, _, validOutput, rfl⟩ := ok
  exact ⟨valid, rfl, validOutput⟩

/-- Where the first target is the only one of its identifier, naming one names the other. -/
theorem firstTarget_eq_of_id (ids : (parsed.map (·.record.id)).Nodup)
    {directive : ParsedSuppressionDirective} (member : directive ∈ parsed) (diagnostic : Diagnostic) :
    ((firstTarget parsed diagnostic).any fun owner => owner.record.id = directive.record.id) = true ↔
      firstTarget parsed diagnostic = some directive := by
  cases found : firstTarget parsed diagnostic with
  | none => simp
  | some owner =>
    have inParsed : owner ∈ parsed := mem_of_find?_eq_some found
    simp only [Option.any_some, decide_eq_true_eq, Option.some.injEq]
    exact ⟨inj_on_of_nodup_map ids inParsed member, fun same => by rw [same]⟩

theorem isSome_firstTarget {diagnostic : Diagnostic} :
    (firstTarget (sortBy compareDirectives directives) diagnostic).isSome = true ↔
      ∃ directive ∈ directives, Targets directive diagnostic := by
  rw [firstTarget, find?_isSome]
  simp [mem_sortBy]

/-- The views are the diagnostics with and without a target. -/
theorem suppressed_map_eq (owner : Diagnostic → Option ParsedSuppressionDirective)
    (diagnostics : List Diagnostic) :
    ((diagnostics.filterMap fun diagnostic => (owner diagnostic).map fun directive =>
        SuppressedDiagnostic.mk diagnostic directive.record.id).map (·.diagnostic)) =
      diagnostics.filter fun diagnostic => (owner diagnostic).isSome := by
  induction diagnostics with
  | nil => rfl
  | cons diagnostic rest ih =>
    cases found : owner diagnostic with
    | none => rw [filterMap_cons, filter_cons, found]; exact ih
    | some directive =>
      rw [filterMap_cons, filter_cons, found]
      exact congrArg (diagnostic :: ·) ih

/-- A completed match splits the diagnostics: the first directive that targets one has it, a
diagnostic that none targets is visible, and a directive that has none is unused. -/
theorem matchSuppressionDirectives_partition
    (ok : matchSuppressionDirectives checks bundle directives sources = .ok result) :
    Partition directives bundle.diagnostics result := by
  obtain ⟨_, rfl, validOutput⟩ := matchSuppressionDirectives_eq_ok ok
  have ids := (validBundle validOutput).suppressionIds
  have records : ((resolveDirectives bundle (sortBy compareDirectives directives)).bundle.suppressions.map
      (·.id)) = (sortBy compareDirectives directives).map (·.record.id) := map_map
  have parsedIds : ((sortBy compareDirectives directives).map (·.record.id)).Nodup := records ▸ ids
  have visible : (resolveDirectives bundle (sortBy compareDirectives directives)).visibleDiagnostics =
      bundle.diagnostics.filter fun diagnostic =>
        (firstTarget (sortBy compareDirectives directives) diagnostic).isNone := by
    simp [resolveDirectives, visibleDiagnostics_eq, ownerOf_ownerIndex]
  have entries : (resolveDirectives bundle (sortBy compareDirectives directives)).suppressedDiagnostics =
      bundle.diagnostics.filterMap fun diagnostic =>
        (firstTarget (sortBy compareDirectives directives) diagnostic).map fun directive =>
          ⟨diagnostic, directive.record.id⟩ := by
    simp [resolveDirectives, suppressedDiagnostics_eq, ownerOf_ownerIndex]
  have suppressed := suppressed_map_eq (firstTarget (sortBy compareDirectives directives))
    bundle.diagnostics
  rw [← entries] at suppressed
  constructor
  case kept => rfl
  case perm =>
    rw [suppressed, visible]
    simp only [← Option.not_isSome]
    exact filter_append_perm _ _
  case disjoint =>
    intro entry member inVisible
    rw [visible, mem_filter] at inVisible
    have inSuppressed := mem_map_of_mem (f := (·.diagnostic)) member
    rw [suppressed, mem_filter, ← Option.not_isNone, inVisible.2] at inSuppressed
    cases inSuppressed.2
  case suppressed_order =>
    rw [suppressed]
    exact filter_sublist
  case visible_order =>
    rw [visible]
    exact filter_sublist
  case suppressed_iff =>
    intro diagnostic member
    rw [suppressed, mem_filter, isSome_firstTarget]
    exact ⟨fun both => both.2, fun targeted => ⟨member, targeted⟩⟩
  case owner =>
    intro entry member
    rw [entries, mem_filterMap] at member
    obtain ⟨diagnostic, _, attributed⟩ := member
    obtain ⟨directive, found, rfl⟩ := Option.map_eq_some_iff.mp attributed
    exact ⟨directive, found, rfl⟩
  case records => exact records
  case ids => exact ids
  case unused_iff =>
    intro directive given record member same
    obtain ⟨other, inParsed, rfl⟩ := mem_map.mp member
    have same : other = directive :=
      inj_on_of_nodup_map parsedIds inParsed ((mem_sortBy compareDirectives).mpr given) same
    rw [resolveRecord_state, members_matched, map_eq_nil_iff, filter_eq_nil_iff, same]
    have inParsed : directive ∈ sortBy compareDirectives directives :=
      (mem_sortBy compareDirectives).mpr given
    simp [ownerOf_ownerIndex, firstTarget_eq_of_id parsedIds inParsed]
  case resolved =>
    intro record member
    obtain ⟨directive, _, rfl⟩ := mem_map.mp member
    unfold resolveRecord
    dsimp only
    split_ifs
    · exact .inl rfl
    · exact .inr rfl

/-! ## Examples -/

/-- Record checks that find nothing. -/
def acceptingChecks : RecordChecks := ⟨fun _ _ => true, fun _ _ => true, fun _ _ => true, fun _ _ => true⟩

def lineLocation (line : Nat) : DiagnosticSourceLocation where
  sourceId := js "s"
  path := js "a"
  sourceDigest := js "d"
  range := ⟨js "s", ⟨line, line, line, 0⟩, ⟨line + 1, line + 1, line, 1⟩⟩

/-- A diagnostic of `ACL101` with one anchor for every line. -/
def lineDiagnostic (id component : String) (line : Nat) : Diagnostic :=
  let basis : DiagnosticFingerprintBasis := ⟨⟨js "anchor", []⟩, ⟨[⟨js "k", js component⟩], []⟩⟩
  { id := js id
    ruleId := js "ACL101"
    ruleVersion := js "1"
    severity := .warning
    message := js "m"
    primary := lineLocation line
    related := []
    suggestion := none
    fingerprintBasis := basis
    fingerprints :=
      ⟨⟨DiagnosticFingerprint.pathFingerprintMethod,
          (DiagnosticFingerprint.computePathFingerprint (js "ACL101") (js "1") (js "a")
            basis.path).getD []⟩,
        ⟨DiagnosticFingerprint.semanticFingerprintMethod,
          (DiagnosticFingerprint.computeSemanticFingerprint (js "ACL101") (js "1")
            basis.semantic).getD []⟩⟩ }

/-- A directive on one line for `ACL101` on the next. -/
def lineDirective (id : String) (line : Nat) : ParsedSuppressionDirective where
  record := ⟨js id, .applicable, lineLocation line, [js "ACL101"], none, [], []⟩
  target := lineLocation (line + 1)

/-- Of two directives on one line the first has the diagnostic on the next; the second, and one that
no diagnostic is behind, are unused, and a diagnostic on another line is visible. -/
theorem matchSuppressionDirectives_partition_line :
    let directives := [lineDirective "s1" 0, lineDirective "s2" 0, lineDirective "s3" 4]
    let diagnostics := [lineDiagnostic "d1" "x" 1, lineDiagnostic "d2" "y" 3]
    ∃ result, matchSuppressionDirectives acceptingChecks ⟨diagnostics, directives.map (·.record)⟩
        directives [] = .ok result ∧
      result.suppressedDiagnostics.map (·.suppressionId) = [js "s1"] ∧
      result.visibleDiagnostics.map (·.id) = [js "d2"] ∧
      result.bundle.suppressions.map (·.state) = [.suppressed, .unused, .unused] ∧
      Partition directives diagnostics result := by
  intro directives diagnostics
  have run : (matchSuppressionDirectives acceptingChecks
      ⟨diagnostics, directives.map (·.record)⟩ directives []).map (fun result =>
        (result.suppressedDiagnostics.map (·.suppressionId),
          result.visibleDiagnostics.map (·.id), result.bundle.suppressions.map (·.state))) =
        .ok ([js "s1"], [js "d2"], [.suppressed, .unused, .unused]) := by
    decide +kernel
  obtain ⟨result, ok, facts⟩ := eq_ok_of_map run
  simp only [Prod.mk.injEq] at facts
  exact ⟨result, ok, facts.1, facts.2.1, facts.2.2, matchSuppressionDirectives_partition ok⟩

end AgentContextLint.Suppression
