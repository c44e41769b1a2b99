import AgentContextLint.Rules.ChangedFileMode
import AgentContextLint.Rules.ScheduleDeterminism

/-!
# What changed-file mode selects

The selection is exact, does not depend on the order of resolutions and changes, and grows with the
changes.
-/

namespace AgentContextLint

open Utf16 Utf8 Metered Sorting List

/-! ## Scheduled rules -/

namespace ScheduledRules

open RuleScheduler DiagnosticValidation

variable (scheduler : ScheduledRules)

theorem exists_report : ∃ checks policy maximum evaluation rawBundle report,
    reportDiagnostics checks policy maximum evaluation rawBundle = .ok report ∧
      scheduler.output.bundle = report.bundle ∧
      scheduler.output.visibleDiagnostics = report.views.visible := by
  rcases scheduler.issued with ⟨checks, evaluate, input, limits, schedules⟩
  have output := schedules.output_eq
  rw [Except.map, sequentialOutput, eq_comm, bind_eq_ok] at output
  rcases output with ⟨preparation, _, output⟩
  rcases bind_eq_ok.mp output with ⟨execution, _, output⟩
  rw [finishSchedule, bind_eq_ok] at output
  rcases output with ⟨report, reports, output⟩
  have eq := Except.ok.inj output
  refine ⟨checks, _, _, _, _, report, reports, ?_, ?_⟩
  · exact (congrArg (·.bundle) eq).symm
  · exact (congrArg (·.visibleDiagnostics) eq).symm

theorem nodup_ids : (scheduler.output.bundle.diagnostics.map (·.id)).Nodup := by
  rcases scheduler.exists_report with ⟨_, _, _, _, _, report, reports, bundle, _⟩
  rw [bundle]
  unfold reportDiagnostics at reports
  rcases bind_eq_ok.mp reports with ⟨_, _, reports⟩
  rcases bind_eq_ok.mp reports with ⟨_, _, reports⟩
  rcases check_bind_eq_ok.mp reports with ⟨_, reports⟩
  rcases bind_eq_ok.mp reports with ⟨canonical, canonicalizes, reports⟩
  cases reports
  unfold canonicalizeRuleDiagnostics at canonicalizes
  rcases bind_eq_ok.mp canonicalizes with ⟨_, _, canonicalizes⟩
  rcases bind_eq_ok.mp canonicalizes with ⟨_, _, canonicalizes⟩
  rcases check_bind_eq_ok.mp canonicalizes with ⟨valid, canonicalizes⟩
  cases canonicalizes
  rw [refuseIf_eq_ok, Bool.not_eq_false] at valid
  exact (validBundle valid).diagnosticIds

theorem visible_subset : scheduler.output.visibleDiagnostics ⊆ scheduler.output.bundle.diagnostics := by
  rcases scheduler.exists_report with ⟨_, _, _, _, _, report, reports, bundle, visible⟩
  rw [bundle, visible]
  unfold reportDiagnostics at reports
  rcases bind_eq_ok.mp reports with ⟨_, _, reports⟩
  rcases bind_eq_ok.mp reports with ⟨_, _, reports⟩
  rcases check_bind_eq_ok.mp reports with ⟨_, reports⟩
  rcases bind_eq_ok.mp reports with ⟨canonical, _, reports⟩
  cases reports
  exact filter_sublist.subset

end ScheduledRules

namespace ChangedFileMode

variable {path : RelativePath} {resolution : EffectiveContext.EffectiveContextResolution}

/-! ## Paths -/

def IsChanged (changes : List GitChangedPath) (path : RelativePath) : Prop :=
  ∃ change ∈ changes, path = change.path ∨ change.previousPath = some path

/-- A path that occurs in a resolution: the target, a document that is neither inactive nor
shadowed, or the target of an import. -/
def Occurs (resolution : EffectiveContext.EffectiveContextResolution)
    (path : RelativePath) : Prop :=
  path = resolution.targetPath ∨
  (∃ document ∈ resolution.documents, document.path = path ∧ document.state ≠ .inactive ∧
    document.state ≠ .shadowed) ∨
  ∃ occurrence ∈ resolution.occurrences, occurrence.targetPath = some path

/-- A path of a diagnostic: primary, or of source, repository-fact or resolution evidence. -/
def Mentions (diagnostic : Diagnostic) (path : RelativePath) : Prop :=
  path = diagnostic.primary.path ∨ ∃ evidence ∈ diagnostic.related,
    (∃ location, evidence.body = .source location ∧ location.path = path) ∨
    (∃ fact, evidence.body = .repositoryFact fact ∧
      (fact.subjectPath = some path ∨ ∃ location ∈ fact.locations, location.path = path)) ∨
    ∃ resolution, evidence.body = .resolution resolution ∧
      ∃ location ∈ resolution.sourceLocations, location.path = path

/-- A changed path, or one that occurs in a resolution together with one. -/
def Related (resolutions : List EffectiveContext.EffectiveContextResolution)
    (changes : List GitChangedPath) (path : RelativePath) : Prop :=
  IsChanged changes path ∨ ∃ resolution ∈ resolutions, Occurs resolution path ∧
    ∃ other, IsChanged changes other ∧ Occurs resolution other

theorem mem_changedPathsOf {changes : List GitChangedPath} :
    path ∈ changedPathsOf changes ↔ IsChanged changes path := by
  unfold changedPathsOf IsChanged ChangedFileMetadata.namedPaths
  rw [mem_sortBy, mem_eraseDups, mem_flatMap]
  apply exists_congr
  intro change
  rw [mem_cons, Option.mem_toList]

theorem mem_importTargets : path ∈ importTargets resolution ↔
      ∃ occurrence ∈ resolution.occurrences, occurrence.targetPath = some path :=
  mem_filterMap

theorem mem_resolutionPaths : path ∈ resolutionPaths resolution ↔ Occurs resolution path := by
  unfold resolutionPaths Occurs
  rw [mem_eraseDups, mem_cons, mem_append, mem_importTargets, mem_map]
  apply or_congr_right (or_congr_left (exists_congr _))
  intro document
  rw [mem_filter, decide_eq_true_eq, and_assoc]
  tauto

theorem mem_evidencePaths {body : RelatedEvidenceBody} : path ∈ evidencePaths body ↔
      (∃ location, body = .source location ∧ location.path = path) ∨
      (∃ fact, body = .repositoryFact fact ∧
        (fact.subjectPath = some path ∨ ∃ location ∈ fact.locations, location.path = path)) ∨
      ∃ resolution, body = .resolution resolution ∧
        ∃ location ∈ resolution.sourceLocations, location.path = path := by
  cases body <;> simp [evidencePaths, eq_comm]

theorem mem_diagnosticPaths {diagnostic : Diagnostic} :
    path ∈ diagnosticPaths diagnostic ↔ Mentions diagnostic path := by
  unfold diagnosticPaths Mentions
  rw [mem_eraseDups, mem_cons, mem_flatMap]
  apply or_congr_right (exists_congr _)
  intro evidence
  rw [mem_evidencePaths]

/-! ## The closure of the changes -/

variable {changedPaths : List RelativePath} {selected : List RelativePath}
  {resolutions : List EffectiveContext.EffectiveContextResolution} {path : RelativePath}

/-- What the loop over the resolutions selects if it comes to its end. -/
def closure (changedPaths : List RelativePath) :
    List RelativePath → List EffectiveContext.EffectiveContextResolution →
      List RelativePath
  | selected, [] => selected
  | selected, resolution :: rest =>
    closure changedPaths
      (if ∃ path ∈ changedPaths, path ∈ resolutionPaths resolution then
        (selected ++ resolutionPaths resolution).eraseDups else selected) rest

theorem mem_closure : path ∈ closure changedPaths selected resolutions ↔ path ∈ selected ∨
      ∃ resolution ∈ resolutions, path ∈ resolutionPaths resolution ∧
        ∃ other ∈ changedPaths, other ∈ resolutionPaths resolution := by
  induction resolutions generalizing selected with
  | nil => simp [closure]
  | cons resolution rest ih =>
    rw [closure, ih]
    split_ifs with touched
    · rw [mem_eraseDups, mem_append, or_assoc]
      apply or_congr_right
      constructor
      · intro either
        rcases either with here | ⟨other, inRest, facts⟩
        · exact ⟨resolution, mem_cons_self, here, touched⟩
        · exact ⟨other, mem_cons_of_mem _ inRest, facts⟩
      · intro found
        rcases found with ⟨other, member, inPaths, facts⟩
        rcases mem_cons.mp member with rfl | inRest
        · exact .inl inPaths
        · exact .inr ⟨other, inRest, inPaths, facts⟩
    · apply or_congr_right
      constructor
      · intro found
        rcases found with ⟨other, inRest, facts⟩
        exact ⟨other, mem_cons_of_mem _ inRest, facts⟩
      · intro found
        rcases found with ⟨other, member, inPaths, facts⟩
        rcases mem_cons.mp member with rfl | inRest
        · exact absurd facts touched
        · exact ⟨other, inRest, inPaths, facts⟩

theorem nodup_closure (distinct : selected.Nodup)
    (resolutions : List EffectiveContext.EffectiveContextResolution) :
    (closure changedPaths selected resolutions).Nodup := by
  induction resolutions generalizing selected with
  | nil => exact distinct
  | cons resolution rest ih =>
    rw [closure]
    apply ih
    split_ifs
    · exact nodup_eraseDups _
    · exact distinct

theorem length_le_closure (distinct : selected.Nodup)
    (resolutions : List EffectiveContext.EffectiveContextResolution) :
    selected.length ≤ (closure changedPaths selected resolutions).length :=
  (distinct.subperm fun _ member => mem_closure.mpr (.inl member)).length_le

/-- The loop stops exactly if the closure is too large. -/
theorem foldlM_selectResolution (changedPaths : List RelativePath) (distinct : selected.Nodup)
    (small : selected.length ≤ maximumSelectedPaths)
    (resolutions : List EffectiveContext.EffectiveContextResolution) :
    ((closure changedPaths selected resolutions).length ≤ maximumSelectedPaths ∧
      resolutions.foldlM (selectResolution changedPaths) selected =
        .ok (closure changedPaths selected resolutions)) ∨
    (maximumSelectedPaths < (closure changedPaths selected resolutions).length ∧
      ∃ reached, resolutions.foldlM (selectResolution changedPaths) selected =
        .error (.resourceLimit, reached)) := by
  induction resolutions generalizing selected with
  | nil => exact .inl ⟨small, rfl⟩
  | cons resolution rest ih =>
    rw [foldlM_cons, closure]
    unfold selectResolution
    dsimp only
    have later : (if ∃ path ∈ changedPaths, path ∈ resolutionPaths resolution then
        (selected ++ resolutionPaths resolution).eraseDups else selected).Nodup := by
      split_ifs
      · exact nodup_eraseDups _
      · exact distinct
    split_ifs at later ⊢ with touched large large
    · exact .inr ⟨large.trans_le (length_le_closure later rest), _, rfl⟩
    · exact ih later (Nat.le_of_not_lt large)
    · exact .inr ⟨large.trans_le (length_le_closure later rest), _, rfl⟩
    · exact ih later (Nat.le_of_not_lt large)

/-! ## The choice -/

theorem nodup_changedPathsOf (changes : List GitChangedPath) : (changedPathsOf changes).Nodup :=
  (nodup_sortBy _).mpr (nodup_eraseDups _)

/-- What the changes select if nothing speaks against a subset. -/
def selection (resolutions : List EffectiveContext.EffectiveContextResolution)
    (changes : List GitChangedPath) : List RelativePath :=
  closure (changedPathsOf changes) (changedPathsOf changes) resolutions

theorem mem_selection {changes : List GitChangedPath} :
    path ∈ selection resolutions changes ↔ Related resolutions changes path := by
  unfold selection Related
  rw [mem_closure, mem_changedPathsOf]
  simp only [mem_resolutionPaths, mem_changedPathsOf]

theorem nodup_selection (resolutions : List EffectiveContext.EffectiveContextResolution)
    (changes : List GitChangedPath) : (selection resolutions changes).Nodup :=
  nodup_closure (nodup_changedPathsOf changes) resolutions

variable {evidence other : ChangedFileModeEvidence} {changes more : List GitChangedPath}
  {resolutions : List EffectiveContext.EffectiveContextResolution} {path : RelativePath}

/-- The conditions of a subset. -/
structure Selectable (evidence : ChangedFileModeEvidence) (changes : List GitChangedPath) : Prop where
  few : (changedPathsOf changes).length ≤ maximumChangedPathsForSubset
  plain : ∀ change ∈ changes, isStructural change.status = false
  uncontrolled : ∀ path ∈ changedPathsOf changes, path ∉ evidence.controlPaths
  parsed : ∀ source ∈ evidence.scheduler.output.sources, source.parseState = .complete
  complete : ∀ resolution ∈ evidence.resolutions, dependencyScopeComplete resolution = true
  fits : (selection evidence.resolutions changes).length ≤ maximumSelectedPaths
  mapped : ∀ path ∈ changedPathsOf changes, unmappedReason evidence path = none

theorem small_of_few {paths : List RelativePath}
    (few : paths.length ≤ maximumChangedPathsForSubset) : paths.length ≤ maximumSelectedPaths :=
  few.trans (by decide)

/-- A subset is selected under conditions that hold of fewer changes, too. -/
theorem selectPaths_eq_ok {changes : List GitChangedPath} {selected : List RelativePath} :
    selectPaths evidence changes (changedPathsOf changes) = .ok selected ↔
      Selectable evidence changes ∧ selected = selection evidence.resolutions changes := by
  unfold selectPaths
  constructor
  · intro ran
    rcases check_bind_eq_ok.mp ran with ⟨few, ran⟩
    rcases check_bind_eq_ok.mp ran with ⟨plain, ran⟩
    rcases check_bind_eq_ok.mp ran with ⟨uncontrolled, ran⟩
    rcases check_bind_eq_ok.mp ran with ⟨parsed, ran⟩
    rcases check_bind_eq_ok.mp ran with ⟨complete, ran⟩
    rw [refuseIf_eq_ok] at few plain uncontrolled parsed complete
    push Not at few plain uncontrolled parsed complete
    simp only [ne_eq, Bool.not_eq_true, Bool.not_eq_false] at plain complete
    rcases bind_eq_ok.mp ran with ⟨reached, loops, ran⟩
    rcases foldlM_selectResolution _ (nodup_changedPathsOf changes) (small_of_few few)
      evidence.resolutions with ⟨fits, completes⟩ | ⟨_, _, fails⟩
    · cases completes.symm.trans loops
      split at ran
      · cases ran
      · next mapped =>
          cases ran
          exact ⟨⟨few, plain, uncontrolled, parsed, complete, fits,
            findSome?_eq_none_iff.mp mapped⟩, rfl⟩
    · cases fails.symm.trans loops
  · intro conditions
    rcases conditions with ⟨⟨few, plain, uncontrolled, parsed, complete, fits, mapped⟩, rfl⟩
    have pass {condition : Prop} [Decidable condition]
        {failure : ChangedFileModeFallbackReason × List RelativePath}
        (fails : ¬ condition) : refuseIf condition failure = .ok () := refuseIf_eq_ok.mpr fails
    apply check_bind_eq_ok.mpr ⟨pass (Nat.not_lt.mpr few), _⟩
    apply check_bind_eq_ok.mpr ⟨pass _, _⟩
    · intro found
      rcases found with ⟨change, member, structural⟩
      exact Bool.false_ne_true ((plain change member).symm.trans structural)
    apply check_bind_eq_ok.mpr ⟨pass _, _⟩
    · intro found
      rcases found with ⟨path, member, controls⟩
      exact uncontrolled path member controls
    apply check_bind_eq_ok.mpr ⟨pass _, _⟩
    · intro found
      rcases found with ⟨source, member, unparsed⟩
      exact unparsed (parsed source member)
    apply check_bind_eq_ok.mpr ⟨pass _, _⟩
    · intro found
      rcases found with ⟨resolution, member, incomplete⟩
      exact Bool.false_ne_true (incomplete.symm.trans (complete resolution member))
    rcases foldlM_selectResolution _ (nodup_changedPathsOf changes) (small_of_few few)
      evidence.resolutions with ⟨_, completes⟩ | ⟨large, _⟩
    · apply bind_eq_ok.mpr ⟨_, completes, _⟩
      rw [findSome?_eq_none_iff.mpr mapped]
      rfl
    · exact absurd fits (Nat.not_le_of_lt large)

/-! ## The order of resolutions and changes -/

/-- Two choices agree in the reason, or in the paths that they select. -/
inductive SameChoice : Except (ChangedFileModeFallbackReason × List RelativePath)
    (List RelativePath) →
    Except (ChangedFileModeFallbackReason × List RelativePath)
    (List RelativePath) → Prop
  | refused {reason : ChangedFileModeFallbackReason} {first second : List RelativePath} :
    SameChoice (.error (reason, first)) (.error (reason, second))
  | chosen {first second : List RelativePath} :
    (∀ path, path ∈ first ↔ path ∈ second) → SameChoice (.ok first) (.ok second)

variable {first second : List RelativePath}

theorem SameChoice.refuseIf {p q : Prop} [Decidable p] [Decidable q] (same : p ↔ q)
    {reason : ChangedFileModeFallbackReason}
    {x y : Except (ChangedFileModeFallbackReason × List RelativePath) (List RelativePath)}
    (later : ¬ p → SameChoice x y) :
    SameChoice (do refuseIf p (reason, first); x) (do refuseIf q (reason, second); y) := by
  unfold Metered.refuseIf
  by_cases refused : p
  · rw [if_pos refused, if_pos (same.mp refused)]
    exact SameChoice.refused
  · rw [if_neg refused, if_neg (mt same.mpr refused)]
    exact later refused

/-- What the loop over the resolutions does not show of their order. -/
structure Reordered (first second : ChangedFileModeEvidence) : Prop where
  controlPaths : first.controlPaths = second.controlPaths
  criticalPathsComplete : first.criticalPathsComplete = second.criticalPathsComplete
  discoveryComplete : first.discoveryComplete = second.discoveryComplete
  instructionPaths : first.instructionPaths = second.instructionPaths
  resolutions : first.resolutions.Perm second.resolutions
  scheduler : first.scheduler = second.scheduler

theorem unmappedReason_congr (same : Reordered evidence other) (path : RelativePath) :
    unmappedReason evidence path = unmappedReason other path := by
  have mapped : path ∈ mappedInstructions evidence ↔ path ∈ mappedInstructions other :=
    (same.resolutions.flatMap_right _).mem_iff
  have targets : path ∈ evidence.resolutions.map (·.targetPath) ↔
      path ∈ other.resolutions.map (·.targetPath) := (same.resolutions.map _).mem_iff
  have represented : isRepresented evidence path = isRepresented other path := by
    unfold isRepresented
    rw [same.scheduler]
  unfold unmappedReason
  simp only [same.instructionPaths, mapped, targets, represented]

theorem selectPaths_sameChoice (same : Reordered evidence other)
    {changes others : List GitChangedPath} (perm : others.Perm changes)
    (paths : changedPathsOf others = changedPathsOf changes) :
    SameChoice (selectPaths other others (changedPathsOf others))
      (selectPaths evidence changes (changedPathsOf changes)) := by
  rw [paths]
  unfold selectPaths
  apply SameChoice.refuseIf Iff.rfl
  intro few
  apply SameChoice.refuseIf
  · simp only [perm.mem_iff]
  intro _
  apply SameChoice.refuseIf
  · rw [same.controlPaths]
  intro _
  apply SameChoice.refuseIf
  · rw [same.scheduler]
  intro _
  apply SameChoice.refuseIf
  · simp only [same.resolutions.mem_iff]
  intro _
  have reason : unmappedReason other = unmappedReason evidence :=
    funext fun path => (unmappedReason_congr same path).symm
  have members : ∀ path,
      path ∈ closure (changedPathsOf changes) (changedPathsOf changes) other.resolutions ↔
      path ∈ closure (changedPathsOf changes) (changedPathsOf changes) evidence.resolutions := by
    intro path
    rw [mem_closure, mem_closure]
    simp only [same.resolutions.mem_iff]
  have size := ((perm_ext_iff_of_nodup
    (nodup_closure (nodup_changedPathsOf changes) other.resolutions)
    (nodup_closure (nodup_changedPathsOf changes) evidence.resolutions)).mpr members).length_eq
  have loop := foldlM_selectResolution (changedPathsOf changes) (nodup_changedPathsOf changes)
    (small_of_few (Nat.le_of_not_lt few))
  rw [reason]
  rcases loop other.resolutions with ⟨fits, first⟩ | ⟨large, reached, first⟩
  · rcases loop evidence.resolutions with ⟨_, second⟩ | ⟨large, _⟩
    · rw [first, second, ok_bind, ok_bind]
      cases (changedPathsOf changes).findSome? (unmappedReason evidence) with
      | none => exact SameChoice.chosen members
      | some reason => exact SameChoice.refused
    · omega
  · rcases loop evidence.resolutions with ⟨fits, _⟩ | ⟨_, other, second⟩
    · omega
    · rw [first, second]
      exact SameChoice.refused

theorem wellFormed_of_canonical
    (canonical : RepositoryPath.isRepositoryRelativePath path = true) : wellFormed path = true :=
  (RepositoryPath.canonicalize_eq_ok.mp
    (RepositoryPath.isRepositoryRelativePath_eq_true.mp canonical)).1.unicode

/-- Canonical paths that the changes name are sorted alike, whatever the order of the changes. -/
theorem changedPathsOf_perm {first second : GitChanges} (perm : first.changes.Perm second.changes) :
    changedPathsOf first.changes = changedPathsOf second.changes := by
  apply sortBy_eq_of_perm
  · intro x inFirst y inFirst' tie
    have canonical : ∀ path ∈ (first.changes.flatMap ChangedFileMetadata.namedPaths).eraseDups,
        wellFormed path = true := by
      intro path member
      rcases mem_flatMap.mp (mem_eraseDups.mp member) with ⟨change, inChanges, named⟩
      exact wellFormed_of_canonical (first.canonical change inChanges path named)
    exact eq_of_compareBytes (canonical x inFirst) (canonical y inFirst') tie
  · apply (perm_ext_iff_of_nodup (nodup_eraseDups _) (nodup_eraseDups _)).mpr
    intro path
    rw [mem_eraseDups, mem_eraseDups, (perm.flatMap_right _).mem_iff]

theorem create_reordered {input : EvidenceAuthorityInput}
    (created : createChangedFileModeEvidenceAuthority input = some evidence)
    (perm : resolutions.Perm input.resolutions) :
    ∃ other, createChangedFileModeEvidenceAuthority { input with resolutions } = some other ∧
      Reordered evidence other := by
  unfold createChangedFileModeEvidenceAuthority at created ⊢
  rcases Option.bind_eq_some_iff.mp created with ⟨sorted, array, created⟩
  rcases Option.bind_eq_some_iff.mp created with ⟨controls, control, created⟩
  rcases Option.bind_eq_some_iff.mp created with ⟨instructions, instruction, created⟩
  split_ifs at created with bound
  cases created
  unfold resolutionArray at array
  split_ifs at array with refused
  cases array
  have accepted : ¬ (resolutions.length > maximumResolutions ∨
      ¬ (resolutions.map resolutionIdentity).Nodup) := by
    rwa [perm.length_eq, (perm.map _).nodup_iff]
  refine ⟨{
    controlPaths := controls
    criticalPathsComplete := input.criticalPathsComplete
    discoveryComplete := input.discovery.isKnown
    instructionPaths := instructions
    resolutions := sortBy (comparingBytes resolutionKey) resolutions
    scheduler := input.scheduler
    scope := input.scope }, ?_, rfl, rfl, rfl, rfl, ?_, rfl⟩
  · apply Option.bind_eq_some_iff.mpr ⟨_, if_neg accepted, _⟩
    apply Option.bind_eq_some_iff.mpr ⟨_, control, _⟩
    apply Option.bind_eq_some_iff.mpr ⟨_, instruction, _⟩
    exact if_pos bound
  · exact (sortBy_perm _ _).trans (perm.symm.trans (sortBy_perm _ _).symm)

/-! ## Fewer changes -/

theorem IsChanged.mono (fewer : changes ⊆ more) (changed : IsChanged changes path) : IsChanged more path := by
  rcases changed with ⟨change, member, named⟩
  exact ⟨change, fewer member, named⟩

theorem Related.mono (fewer : changes ⊆ more)
    (related : Related resolutions changes path) : Related resolutions more path := by
  rcases related with changed | ⟨resolution, member, occurs, beside, changed, occursBeside⟩
  · exact .inl (changed.mono fewer)
  · exact .inr ⟨resolution, member, occurs, beside, changed.mono fewer, occursBeside⟩

theorem Selectable.mono (fewer : changes ⊆ more)
    (selectable : Selectable evidence more) : Selectable evidence changes := by
  have paths : changedPathsOf changes ⊆ changedPathsOf more := fun _ member =>
    mem_changedPathsOf.mpr ((mem_changedPathsOf.mp member).mono fewer)
  have selected : selection evidence.resolutions changes ⊆ selection evidence.resolutions more :=
    fun _ member => mem_selection.mpr ((mem_selection.mp member).mono fewer)
  constructor
  · exact ((nodup_changedPathsOf changes).subperm paths).length_le.trans selectable.few
  · exact fun change member => selectable.plain change (fewer member)
  · exact fun path member => selectable.uncontrolled path (paths member)
  · exact selectable.parsed
  · exact selectable.complete
  · exact ((nodup_selection _ changes).subperm selected).length_le.trans selectable.fits
  · exact fun path member => selectable.mapped path (paths member)

/-! ## The plan -/

variable {scheduler : ScheduledRules} {diagnostic : Diagnostic} {diagnostics : List Diagnostic}

/-- An identifier tells whether its diagnostic is kept. -/
theorem mem_ids_filter (distinct : (diagnostics.map (·.id)).Nodup)
    {kept : Diagnostic → Bool} (member : diagnostic ∈ diagnostics) :
    diagnostic.id ∈ (diagnostics.filter kept).map (·.id) ↔ kept diagnostic = true := by
  constructor
  · intro found
    rcases mem_map.mp found with ⟨other, inKept, same⟩
    rcases mem_filter.mp inKept with ⟨inDiagnostics, isKept⟩
    rwa [← inj_on_of_nodup_map distinct inDiagnostics member same]
  · exact fun isKept => mem_map_of_mem (mem_filter.mpr ⟨member, isKept⟩)

theorem mem_sortedIds {values : List Diagnostic} {id : Text} :
    id ∈ sortedIds values ↔ id ∈ values.map (·.id) := mem_sortBy _

/-- The identifiers of the kept diagnostics and of the others are those of all diagnostics. -/
theorem sortedIds_partition (distinct : (diagnostics.map (·.id)).Nodup) (kept : Diagnostic → Bool) :
    (sortedIds (diagnostics.filter kept) ++
      sortedIds (diagnostics.filter (·.id ∉ (diagnostics.filter kept).map (·.id)))).Perm
      (diagnostics.map (·.id)) := by
  have others : diagnostics.filter (·.id ∉ (diagnostics.filter kept).map (·.id)) =
      diagnostics.filter fun diagnostic => !kept diagnostic := by
    apply filter_congr
    intro diagnostic member
    rw [Bool.eq_iff_iff, decide_eq_true_eq, mem_ids_filter distinct member, Bool.not_eq_true,
      Bool.not_eq_true']
  rw [others]
  apply ((sortBy_perm _ _).append (sortBy_perm _ _)).trans
  rw [← map_append]
  exact (filter_append_perm kept diagnostics).map _

def isIncluded (scheduler : ScheduledRules) (selectedPaths : List RelativePath) :
    ScanMode → Diagnostic → Bool
  | .full, _ => true
  | .changed, diagnostic =>
    isRootDiagnostic scheduler diagnostic || (diagnosticPaths diagnostic).any (· ∈ selectedPaths)

theorem includedDiagnostics_eq (selectedPaths : List RelativePath) (mode : ScanMode) :
    includedDiagnostics scheduler selectedPaths mode =
      scheduler.output.bundle.diagnostics.filter (isIncluded scheduler selectedPaths mode) := by
  cases mode with
  | full => exact (filter_eq_self.mpr fun _ _ => rfl).symm
  | changed => rfl

theorem result_partition (changedPaths selectedPaths : List RelativePath)
    (mode : ScanMode) (reason : Option ChangedFileModeFallbackReason) :
    ((result scheduler changedPaths selectedPaths mode reason).includedDiagnosticIds ++
      (result scheduler changedPaths selectedPaths mode reason).excludedDiagnosticIds).Perm
      (scheduler.output.bundle.diagnostics.map (·.id)) := by
  unfold result
  dsimp only
  rw [includedDiagnostics_eq]
  exact sortedIds_partition scheduler.nodup_ids _

theorem mem_includedDiagnosticIds {changedPaths selectedPaths : List RelativePath}
    {mode : ScanMode} {reason : Option ChangedFileModeFallbackReason}
    (member : diagnostic ∈ scheduler.output.bundle.diagnostics) :
    diagnostic.id ∈ (result scheduler changedPaths selectedPaths mode reason).includedDiagnosticIds ↔
      isIncluded scheduler selectedPaths mode diagnostic = true := by
  unfold result
  dsimp only
  rw [includedDiagnostics_eq, mem_sortedIds, mem_ids_filter scheduler.nodup_ids member]

/-- A diagnostic that is to be included in a subset. -/
def Relevant (evidence : ChangedFileModeEvidence) (changes : List GitChangedPath)
    (diagnostic : Diagnostic) : Prop :=
  (diagnostic.ruleId ∈ alwaysVisibleRules ∧
    diagnostic ∈ evidence.scheduler.output.visibleDiagnostics ∧
    diagnostic.primary.path = RepositoryPath.repositoryRoot) ∨
  ∃ path, Mentions diagnostic path ∧ Related evidence.resolutions changes path

theorem isRootDiagnostic_iff (member : diagnostic ∈ scheduler.output.bundle.diagnostics) :
    isRootDiagnostic scheduler diagnostic = true ↔
      diagnostic.ruleId ∈ alwaysVisibleRules ∧ diagnostic ∈ scheduler.output.visibleDiagnostics ∧
        diagnostic.primary.path = RepositoryPath.repositoryRoot := by
  have visible : diagnostic.id ∈ scheduler.output.visibleDiagnostics.map (·.id) ↔
      diagnostic ∈ scheduler.output.visibleDiagnostics := by
    constructor
    · intro found
      rcases mem_map.mp found with ⟨other, inVisible, same⟩
      rwa [← inj_on_of_nodup_map scheduler.nodup_ids (scheduler.visible_subset inVisible)
        member same]
    · exact mem_map_of_mem
  unfold isRootDiagnostic
  rw [Bool.and_eq_true, Bool.and_eq_true, decide_eq_true_eq, decide_eq_true_eq, decide_eq_true_eq,
    visible, and_assoc]

theorem isIncluded_iff {changes : List GitChangedPath}
    (member : diagnostic ∈ evidence.scheduler.output.bundle.diagnostics) :
    isIncluded evidence.scheduler (selection evidence.resolutions changes) .changed diagnostic =
      true ↔ Relevant evidence changes diagnostic := by
  unfold isIncluded Relevant
  rw [Bool.or_eq_true, isRootDiagnostic_iff member, any_eq_true]
  apply or_congr_right (exists_congr _)
  intro path
  rw [decide_eq_true_eq, mem_diagnosticPaths, mem_selection]

def planReady (evidence : ChangedFileModeEvidence) (changes : GitChanges) : ChangedFileModeResult :=
  planChangedFileMode
    (some ⟨some evidence, some ⟨.ready changes, evidence.scope⟩, some evidence.scope⟩)

theorem planReady_eq (changes : GitChanges) :
    planReady evidence changes = planChanges evidence changes.changes := by
  unfold planReady planChangedFileMode
  dsimp only
  rw [if_neg (by simp)]

/-- A plan is a full one, or the subset for the selection if the conditions admit one. -/
theorem planChanges_cases (evidence : ChangedFileModeEvidence) (changes : List GitChangedPath) :
    (¬ (evidence.discoveryComplete = true ∧ evidence.criticalPathsComplete = true ∧
      Selectable evidence changes) ∧ ∃ changedPaths selectedPaths reason,
        planChanges evidence changes = full evidence.scheduler changedPaths selectedPaths reason) ∨
    ((evidence.discoveryComplete = true ∧ evidence.criticalPathsComplete = true ∧
      Selectable evidence changes) ∧ planChanges evidence changes =
        result evidence.scheduler (changedPathsOf changes) (selection evidence.resolutions changes)
          .changed none) := by
  unfold planChanges
  dsimp only
  split_ifs with unknown unscanned
  · exact .inl ⟨fun conditions => Bool.false_ne_true (unknown.symm.trans conditions.1), _, _, _, rfl⟩
  · exact .inl ⟨fun conditions => Bool.false_ne_true (unscanned.symm.trans conditions.2.1),
      _, _, _, rfl⟩
  · cases chosen : selectPaths evidence changes (changedPathsOf changes) with
    | error failure =>
      refine .inl ⟨?_, _, _, _, rfl⟩
      intro conditions
      cases chosen.symm.trans (selectPaths_eq_ok.mpr ⟨conditions.2.2, rfl⟩)
    | ok selected =>
      rcases selectPaths_eq_ok.mp chosen with ⟨selectable, rfl⟩
      exact .inr ⟨⟨Bool.not_eq_false _ ▸ unknown, Bool.not_eq_false _ ▸ unscanned, selectable⟩,
        rfl⟩

/-- An instruction of a resolution, the target of one, or a path of a visible diagnostic. -/
def IsMapped (evidence : ChangedFileModeEvidence) (path : RelativePath) : Prop :=
  (∃ resolution ∈ evidence.resolutions, (∃ document ∈ resolution.documents, document.path = path) ∨
    ∃ occurrence ∈ resolution.occurrences, occurrence.targetPath = some path) ∨
  (∃ resolution ∈ evidence.resolutions, resolution.targetPath = path) ∨
  ∃ diagnostic ∈ evidence.scheduler.output.visibleDiagnostics, Mentions diagnostic path

theorem isMapped_of_unmappedReason {path : RelativePath}
    (mapped : unmappedReason evidence path = none) : IsMapped evidence path := by
  unfold unmappedReason at mapped
  split_ifs at mapped with instruction unmapped
  by_cases known : path ∈ mappedInstructions evidence
  · rcases mem_flatMap.mp known with ⟨resolution, member, here⟩
    refine .inl ⟨resolution, member, ?_⟩
    rwa [mem_append, mem_importTargets, mem_map] at here
  · right
    have noInstruction : path ∉ evidence.instructionPaths := fun listed =>
      instruction ⟨listed, known⟩
    by_cases target : path ∈ evidence.resolutions.map (·.targetPath)
    · exact .inl (mem_map.mp target)
    · have represented : isRepresented evidence path = true := by
        by_contra absent
        exact unmapped ⟨noInstruction, known, target, Bool.not_eq_true _ ▸ absent⟩
      rcases any_eq_true.mp represented with ⟨diagnostic, member, mentions⟩
      exact .inr ⟨diagnostic, member, mem_diagnosticPaths.mp (of_decide_eq_true mentions)⟩

/-- Plans that differ in the paths only. -/
structure SamePlan (first second : ChangedFileModeResult) : Prop where
  mode : first.mode = second.mode
  reason : first.reason = second.reason
  included : first.includedDiagnosticIds = second.includedDiagnosticIds
  excluded : first.excludedDiagnosticIds = second.excludedDiagnosticIds

theorem samePlan_of_members (members : ∀ path, path ∈ first ↔ path ∈ second)
    (changedPaths : List RelativePath) :
    SamePlan (result scheduler changedPaths first .changed none)
      (result scheduler changedPaths second .changed none) := by
  have same : includedDiagnostics scheduler first .changed =
      includedDiagnostics scheduler second .changed := by
    unfold includedDiagnostics
    simp only [members]
  constructor
  · rfl
  · rfl
  · exact congrArg sortedIds same
  · unfold result
    dsimp only
    rw [same]

theorem samePlan_reordered {other : ChangedFileModeEvidence} (same : Reordered evidence other)
    {changes others : GitChanges} (perm : others.changes.Perm changes.changes) :
    SamePlan (planReady other others) (planReady evidence changes) := by
  have paths := changedPathsOf_perm perm
  rw [planReady_eq, planReady_eq]
  unfold planChanges
  rw [← same.discoveryComplete, ← same.criticalPathsComplete, ← same.scheduler]
  split_ifs
  · exact ⟨rfl, rfl, rfl, rfl⟩
  · exact ⟨rfl, rfl, rfl, rfl⟩
  · have choices := selectPaths_sameChoice same perm paths
    dsimp only
    rw [paths] at choices ⊢
    generalize selectPaths other others.changes (changedPathsOf changes.changes) = first at choices ⊢
    generalize selectPaths evidence changes.changes (changedPathsOf changes.changes) = second
      at choices ⊢
    cases choices with
    | refused => exact ⟨rfl, rfl, rfl, rfl⟩
    | chosen members => exact samePlan_of_members members _

/-- What a plan says of the diagnostics. -/
structure ChangedFileSelection (evidence : ChangedFileModeEvidence) (changes : List GitChangedPath)
    (plan : ChangedFileModeResult) : Prop where
  partition : (plan.includedDiagnosticIds ++ plan.excludedDiagnosticIds).Perm
    (evidence.scheduler.output.bundle.diagnostics.map (·.id))
  disjoint : (plan.includedDiagnosticIds ++ plan.excludedDiagnosticIds).Nodup
  full : plan.mode = .full → ∀ diagnostic ∈ evidence.scheduler.output.bundle.diagnostics,
    diagnostic.id ∈ plan.includedDiagnosticIds
  exactly : plan.mode = .changed → ∀ diagnostic ∈ evidence.scheduler.output.bundle.diagnostics,
    (diagnostic.id ∈ plan.includedDiagnosticIds ↔ Relevant evidence changes diagnostic)
  mapped : plan.mode = .changed → ∀ path, IsChanged changes path → IsMapped evidence path

theorem planReady_selection (evidence : ChangedFileModeEvidence) (changes : GitChanges) :
    ChangedFileSelection evidence changes.changes (planReady evidence changes) := by
  rw [planReady_eq]
  rcases planChanges_cases evidence changes.changes with
    ⟨_, changedPaths, selectedPaths, reason, eq⟩ | ⟨⟨_, _, selectable⟩, eq⟩
  · rw [eq]
    have whole : ((result evidence.scheduler changedPaths selectedPaths .full
        (some reason)).includedDiagnosticIds ++ _).Perm _ := result_partition _ _ _ _
    constructor
    · exact whole
    · exact whole.nodup_iff.mpr evidence.scheduler.nodup_ids
    · exact fun _ diagnostic member => (mem_includedDiagnosticIds member).mpr rfl
    · exact fun isChanged => by cases isChanged
    · exact fun isChanged => by cases isChanged
  · rw [eq]
    have whole : ((result evidence.scheduler (changedPathsOf changes.changes)
        (selection evidence.resolutions changes.changes) .changed none).includedDiagnosticIds ++
          _).Perm _ := result_partition _ _ _ _
    constructor
    · exact whole
    · exact whole.nodup_iff.mpr evidence.scheduler.nodup_ids
    · exact fun isFull => by cases isFull
    · exact fun _ diagnostic member =>
        (mem_includedDiagnosticIds member).trans (isIncluded_iff member)
    · exact fun _ path changed =>
        isMapped_of_unmappedReason (selectable.mapped path (mem_changedPathsOf.mpr changed))

theorem planReady_mono (evidence : ChangedFileModeEvidence) {changes more : GitChanges}
    (fewer : changes.changes ⊆ more.changes) :
    (planReady evidence changes).includedDiagnosticIds ⊆
      (planReady evidence more).includedDiagnosticIds := by
  intro id included
  have known := (planReady_selection evidence changes).partition.mem_iff.mp
    (mem_append_left _ included)
  rcases mem_map.mp known with ⟨diagnostic, member, rfl⟩
  rw [planReady_eq] at included ⊢
  rcases planChanges_cases evidence more.changes with ⟨_, _, _, _, eq⟩ | ⟨conditions, eq⟩
  · rw [eq]
    exact (mem_includedDiagnosticIds member).mpr rfl
  · rw [eq, mem_includedDiagnosticIds member, isIncluded_iff member]
    rcases conditions with ⟨discovery, critical, selectable⟩
    rcases planChanges_cases evidence changes.changes with ⟨refused, _⟩ | ⟨_, eq⟩
    · exact absurd ⟨discovery, critical, selectable.mono fewer⟩ refused
    · rw [eq, mem_includedDiagnosticIds member, isIncluded_iff member] at included
      rcases included with root | ⟨path, mentions, related⟩
      · exact .inl root
      · exact .inr ⟨path, mentions, related.mono fewer⟩

/-- For issued evidence, a plan for ready metadata is exact; it does not depend on the order of
resolutions and changes; and more changes never exclude a diagnostic that fewer include. -/
theorem planChangedFileMode_selects {input : EvidenceAuthorityInput}
    (created : createChangedFileModeEvidenceAuthority input = some evidence) (changes : GitChanges) :
    ChangedFileSelection evidence changes.changes (planReady evidence changes) ∧
    (∀ (resolutions : List EffectiveContext.EffectiveContextResolution) (others : GitChanges),
      resolutions.Perm input.resolutions → others.changes.Perm changes.changes →
        ∃ other, createChangedFileModeEvidenceAuthority { input with resolutions } = some other ∧
          SamePlan (planReady other others) (planReady evidence changes)) ∧
    ∀ more : GitChanges, changes.changes ⊆ more.changes →
      (planReady evidence changes).includedDiagnosticIds ⊆
        (planReady evidence more).includedDiagnosticIds := by
  refine ⟨planReady_selection evidence changes, ?_, fun more fewer => planReady_mono evidence fewer⟩
  intro resolutions others perm permuted
  rcases create_reordered created perm with ⟨other, createdOther, same⟩
  exact ⟨other, createdOther, samePlan_reordered same permuted⟩

/-! ## One resolution -/

/-- The instruction file `a`. -/
def loadedDocument : EffectiveContext.EffectiveContextDocument where
  activation := .active
  availableBytes := none
  contentSha256 := none
  contentState := .identityOnly
  formatId := js "gemini-md"
  id := js "document-a"
  includedBytes := none
  order := some 0
  path := js "a"
  reasonCode := js "loaded"
  sourceDocumentId := none
  state := .effective
  text := none
  truncation := .whole

/-- The context of `src/a.ts`, which one file is in. -/
def loadedResolution : EffectiveContext.EffectiveContextResolution where
  ambiguities := []
  analysisIsComplete := true
  assembly := ⟨none, [], none, .incomplete, none⟩
  clientVersion := none
  conflicts := []
  documents := [loadedDocument]
  occurrences := []
  ordering := .total
  precedence := []
  profileId := js "gemini-cli"
  profileVersion := js "0.1.0"
  sequence := [js "document-a"]
  specSnapshotId := js "gemini-cli/2026-08-02.0"
  surfaceId := js "gemini-cli/local-terminal"
  targetPath := js "src/a.ts"

def loadedInput (scheduler : ScheduledRules) : EvidenceAuthorityInput where
  configurationMatchesSelection := true
  criticalPathsComplete := true
  discovery := ⟨[], true⟩
  lockfile := js "agent-context-standards.lock.json"
  resolutions := [loadedResolution]
  scheduler := scheduler
  scope := 0

def loadedEvidence (scheduler : ScheduledRules) : ChangedFileModeEvidence where
  controlPaths := [configurationFileName, js "agent-context-standards.lock.json"]
  criticalPathsComplete := true
  discoveryComplete := true
  instructionPaths := []
  resolutions := [loadedResolution]
  scheduler := scheduler
  scope := 0

def modifiedTarget : GitChanges where
  changes := [⟨js "src/a.ts", none, .modified⟩]
  canonical := by decide +kernel

/-- Scheduled rules that find one diagnostic, in `a`. -/
theorem exists_scheduledRules : ∃ scheduler : ScheduledRules,
    scheduler.output.sources = [] ∧
      scheduler.output.bundle.diagnostics.map (·.primary.path) = [js "a"] := by
  rcases eq_ok_of_map RuleScheduler.sequentialOutput_twoFamilies with ⟨output, ok, found⟩
  rcases RuleScheduler.exists_schedules Suppression.acceptingChecks RuleScheduler.lineEvaluator
    RuleScheduler.twoFamilies (RuleScheduler.workersLimits 1 0 (by decide) (by decide)) with
    ⟨left, schedules⟩
  have leftOk := schedules.output_eq
  rw [ok] at leftOk
  rcases eq_ok_of_map leftOk with ⟨success, rfl, rfl⟩
  exact ⟨⟨success, _, _, _, _, schedules⟩, Prod.ext_iff.mp found⟩

theorem selectable_modifiedTarget {scheduler : ScheduledRules} (sources : scheduler.output.sources = []) :
    Selectable (loadedEvidence scheduler) modifiedTarget.changes where
  few := by decide
  plain := by decide
  uncontrolled := by
    dsimp only [loadedEvidence]
    decide +kernel
  parsed := by
    intro source member
    cases sources ▸ member
  complete := forall_mem_singleton.mpr rfl
  fits := by
    dsimp only [loadedEvidence]
    decide +kernel
  mapped := by
    have only : changedPathsOf modifiedTarget.changes = [js "src/a.ts"] := by decide +kernel
    intro path member
    cases mem_singleton.mp (only ▸ member)
    unfold unmappedReason
    rw [if_neg fun listed => not_mem_nil listed.1, if_neg fun unmapped =>
      unmapped.2.2.1 (mem_singleton_self _)]

/-- A change of the target selects the diagnostic in the file that is loaded for it. -/
theorem planChangedFileMode_selects_target : ∃ scheduler evidence diagnostic,
    createChangedFileModeEvidenceAuthority (loadedInput scheduler) = some evidence ∧
    ChangedFileSelection evidence modifiedTarget.changes (planReady evidence modifiedTarget) ∧
    (planReady evidence modifiedTarget).mode = .changed ∧
    diagnostic ∈ scheduler.output.bundle.diagnostics ∧
    diagnostic.id ∈ (planReady evidence modifiedTarget).includedDiagnosticIds := by
  rcases exists_scheduledRules with ⟨scheduler, sources, found⟩
  rcases map_eq_singleton_iff.mp found with ⟨diagnostic, only, path⟩
  have member : diagnostic ∈ scheduler.output.bundle.diagnostics := only ▸ mem_singleton_self _
  have created : createChangedFileModeEvidenceAuthority (loadedInput scheduler) =
      some (loadedEvidence scheduler) := rfl
  have selects := (planChangedFileMode_selects created modifiedTarget).1
  have changed : (planReady (loadedEvidence scheduler) modifiedTarget).mode = .changed := by
    rw [planReady_eq]
    rcases planChanges_cases (loadedEvidence scheduler) modifiedTarget.changes with
      ⟨refused, _⟩ | ⟨_, eq⟩
    · exact absurd ⟨rfl, rfl, selectable_modifiedTarget sources⟩ refused
    · rw [eq]
      rfl
  refine ⟨scheduler, _, diagnostic, created, selects, changed, member, ?_⟩
  have loaded : Occurs loadedResolution (js "a") :=
    .inr (.inl ⟨loadedDocument, mem_singleton_self _, rfl, by decide, by decide⟩)
  exact (selects.exactly changed diagnostic member).mpr (.inr ⟨js "a", .inl path.symm,
    .inr ⟨loadedResolution, mem_singleton_self _, loaded, js "src/a.ts",
      ⟨_, mem_singleton_self _, .inl rfl⟩, .inl rfl⟩⟩)

end ChangedFileMode

end AgentContextLint
