import AgentContextLint.Resolver.CrossProfileComparison
import AgentContextLint.Resolver.GeminiProjection
import AgentContextLint.Resolver.ClaudeProjection

/-!
# What an issued resolution has

Whatever the profile is, the documents of an issued resolution have distinct paths and are named
by digests of them (`issued_documents`), and its sequence names each document at most once. If its
ordering is total, the sequence names every included document (`issued_sequence`).
-/

namespace AgentContextLint.ProfileProjections

open Utf16 Utf8 Metered Sorting EffectiveContext List

open EffectiveContext (EffectiveContextDocument EffectiveContextResolution Projection
  EffectiveContextPrecedence ContextOrdering AmbiguityRequest addAmbiguities documentId loadOrder
  possible documentsOf projectedPrecedence topologicalSequence geminiDocuments geminiEffective
  geminiProfileId IdsDistinguish arc conflictOf failIf_eq_ok opposed resolution)
open CrossProfile (scopeState)
open SourceRemoval (Sound run start)

/-! ## The projections -/

/-- What a projection consists of, besides its ambiguities. -/
structure Shape (projection : Projection) (documents : List EffectiveContextDocument)
    (precedence : List EffectiveContextPrecedence) (sequence : List Text)
    (ordering : ContextOrdering) (profileId : Text) : Prop where
  documents : projection.documents = documents
  precedence : projection.precedence = precedence
  sequence : projection.sequence = sequence
  ordering : projection.ordering = ordering
  profileId : projection.profileId = profileId

variable {projection : Projection} {targetPath : RelativePath} {value : CodexCliAgentsResolution}

theorem codex_shape (projects : projectCodex value = .ok projection) :
    Shape projection (codexDocuments value) (loadOrder (codexEffective value))
      ((codexEffective value).map (·.id))
      (if ∃ entry ∈ codexDocuments value, entry.activation = .indeterminate
        then .incomplete else .total) value.profile.profileId := by
  rcases bind_eq_ok.mp projects with ⟨_, _, projects⟩
  cases projects
  exact ⟨rfl, rfl, rfl, rfl, rfl⟩

theorem copilot_shape {value : CopilotProfileResolution}
    (projects : projectCopilot value targetPath = .ok projection) :
    Shape projection (copilotDocuments value targetPath) []
      (sortBy compareBytes ((possible (copilotDocuments value targetPath)).map (·.id)))
      (if (possible (copilotDocuments value targetPath)).length ≤ 1 then .total else .unordered)
      value.profile.profileId := by
  rcases bind_eq_ok.mp projects with ⟨_, _, projects⟩
  cases projects
  exact ⟨rfl, rfl, rfl, rfl, rfl⟩

theorem cursor_shape {value : CursorProfileResolution}
    (projects : projectCursor value targetPath = .ok projection) :
    Shape projection (cursorDocuments value targetPath) []
      (sortBy compareBytes ((possible (cursorDocuments value targetPath)).map (·.id)))
      (if (possible (cursorDocuments value targetPath)).length ≤ 1 then .total else .unknown)
      value.profile.profileId := by
  rcases bind_eq_ok.mp projects with ⟨_, _, projects⟩
  cases projects
  exact ⟨rfl, rfl, rfl, rfl, rfl⟩

theorem claude_shape {value : ClaudeCodeProfileResolution}
    (projects : projectClaude value = .ok projection) :
    Shape projection (documentsOf value) (projectedPrecedence value)
      (orderedDocuments value).sequence
      (if (orderedDocuments value).complete then .total else .incomplete)
      ClaudeCodeProfile.profileId := by
  rcases bind_eq_ok.mp projects with ⟨_, _, projects⟩
  rcases bind_eq_ok.mp projects with ⟨_, _, projects⟩
  cases projects
  exact ⟨rfl, rfl, rfl, rfl, rfl⟩

theorem gemini_shape {value : GeminiCliResolution} (projects : projectGemini value = .ok projection) :
    Shape projection (geminiDocuments value) (geminiPrecedence value)
      ((geminiEffective value).map (·.id)) .total geminiProfileId := by
  rcases bind_eq_ok.mp projects with ⟨_, _, projects⟩
  cases projects
  exact ⟨rfl, rfl, rfl, rfl, rfl⟩

/-! ## Documents -/

def Named (documents : List EffectiveContextDocument) (profileId : Text) : Prop :=
  ∀ document ∈ documents, document.id = documentId profileId document.path

variable {profileId : Text}

theorem named_of_map {β : Type} {entries : List β} {make : β → EffectiveContextDocument}
    {documents : List EffectiveContextDocument} (within : documents ⊆ entries.map make)
    (each : ∀ entry ∈ entries, (make entry).id = documentId profileId (make entry).path) :
    Named documents profileId := by
  intro document member
  rcases mem_map.mp (within member) with ⟨entry, inEntries, rfl⟩
  exact each entry inEntries

theorem sortBy_subset {α : Type} (cmp : α → α → Ordering) (list : List α) :
    sortBy cmp list ⊆ list := fun _ => (mem_sortBy cmp).mp

variable {profileResolution : EffectiveContextProfileResolution}

theorem named_of_project (projects : project profileResolution targetPath = .ok projection) :
    Named projection.documents projection.profileId := by
  cases profileResolution with
  | codexCli value =>
    have shape := codex_shape (check_bind_eq_ok.mp projects).2
    rw [shape.documents, shape.profileId]
    exact named_of_map (List.Subset.refl _) fun _ _ => rfl
  | copilot value =>
    have shape := copilot_shape projects
    rw [shape.documents, shape.profileId]
    exact named_of_map (sortBy_subset _ _) fun _ _ => rfl
  | cursor value =>
    have shape := cursor_shape projects
    rw [shape.documents, shape.profileId]
    exact named_of_map (sortBy_subset _ _) fun _ _ => rfl
  | modelled value =>
    cases value with
    | claudeCode value =>
      have shape := claude_shape projects
      rw [shape.documents, shape.profileId]
      exact fun _ => id_eq
    | geminiCli value =>
      have shape := gemini_shape projects
      rw [shape.documents, shape.profileId]
      exact fun _ => id_geminiDocument

/-! ## Sequences -/

variable {document : EffectiveContextDocument}

theorem included_iff : scopeState document = .included ↔
    document.activation = .active ∧ document.state ≠ .conditional ∧ document.state ≠ .inactive ∧
      document.state ≠ .shadowed := by
  unfold scopeState
  split_ifs with conditional excluded
  · constructor
    · exact fun eq => by cases eq
    · intro included
      rcases conditional with indeterminate | other
      · rw [included.1] at indeterminate
        cases indeterminate
      · exact absurd other included.2.1
  · constructor
    · exact fun eq => by cases eq
    · intro included
      rcases excluded with inactive | other | shadowed
      · rw [included.1] at inactive
        cases inactive
      · exact absurd other included.2.2.1
      · exact absurd shadowed included.2.2.2
  · have remains : document.activation = .active := by
      cases activation : document.activation with
      | active => rfl
      | inactive => exact absurd (.inl activation) excluded
      | indeterminate => exact absurd (.inl activation) conditional
    exact ⟨fun _ => ⟨remains, fun eq => conditional (.inr eq),
      fun eq => excluded (.inr (.inl eq)), fun eq => excluded (.inr (.inr eq))⟩, fun _ => rfl⟩

/-- A sequence names documents, each once, and if the ordering is total all that are included. -/
structure Sequenced (documents : List EffectiveContextDocument) (ordering : ContextOrdering)
    (sequence : List Text) : Prop where
  inside : sequence ⊆ documents.map (·.id)
  nodup : sequence.Nodup
  total : ordering = .total → ∀ document ∈ documents, scopeState document = .included →
    document.id ∈ sequence

variable {documents : List EffectiveContextDocument} {ordering : ContextOrdering}

theorem sequenced_of_perm {part : List EffectiveContextDocument} {sequence : List Text}
    (distinct : (documents.map (·.id)).Nodup) (within : part.Sublist documents)
    (listed : sequence.Perm (part.map (·.id)))
    (all : ∀ document ∈ documents, scopeState document = .included → document ∈ part) :
    Sequenced documents ordering sequence where
  inside := fun _ member => map_subset _ within.subset (listed.mem_iff.mp member)
  nodup := listed.nodup_iff.mpr (distinct.sublist (within.map _))
  total := fun _ document member included =>
    listed.mem_iff.mpr (mem_map_of_mem (all document member included))

theorem mem_possible_of_included (member : document ∈ documents)
    (included : scopeState document = .included) : document ∈ possible documents := by
  refine mem_filter.mpr ⟨member, decide_eq_true fun inactive => ?_⟩
  rw [(included_iff.mp included).1] at inactive
  cases inactive

theorem codex_sequenced (distinct : ((codexDocuments value).map (·.id)).Nodup) :
    Sequenced (codexDocuments value) ordering ((codexEffective value).map (·.id)) := by
  refine sequenced_of_perm distinct filter_sublist ((sortBy_perm _ _).map _) ?_
  intro document member included
  have facts := included_iff.mp included
  exact mem_filter.mpr ⟨member, decide_eq_true ⟨facts.1, facts.2.2.2⟩⟩

theorem possible_sequenced (distinct : (documents.map (·.id)).Nodup) :
    Sequenced documents ordering (sortBy compareBytes ((possible documents).map (·.id))) :=
  sequenced_of_perm distinct filter_sublist (sortBy_perm _ _)
    fun _ => mem_possible_of_included

theorem claude_sequenced (value : ClaudeCodeProfileResolution) : Sequenced (documentsOf value)
      (if (orderedDocuments value).complete then .total else .incomplete)
      (orderedDocuments value).sequence := by
  let ids := ((possible (documentsOf value)).map (·.id)).eraseDups
  let arcs := ((projectedPrecedence value).map arc).filter fun arc =>
    arc.1 ∈ ids ∧ arc.2 ∈ ids
  have sound : Sound ids arcs
      (run compareBytes ids arcs ids.length (start arcs)) :=
    Sound.start.run ids.length
  constructor
  · intro id member
    rcases mem_map.mp (mem_eraseDups.mp (sound.inside member)) with
      ⟨document, inPossible, rfl⟩
    exact mem_map_of_mem (mem_filter.mp inPossible).1
  · exact sound.nodup
  · intro total document member included
    split_ifs at total with complete
    have whole := (Bool.and_eq_true_iff.mp complete).1
    have perm := (subperm_of_subset sound.nodup sound.inside).perm_of_length_le
      (of_decide_eq_true whole).ge
    apply perm.mem_iff.mpr
    exact mem_eraseDups.mpr (mem_map_of_mem (mem_possible_of_included member included))

theorem gemini_sequenced {value : GeminiCliResolution}
    (distinct : ((geminiDocuments value).map (·.id)).Nodup) :
    Sequenced (geminiDocuments value) ordering ((geminiEffective value).map (·.id)) := by
  refine sequenced_of_perm distinct filter_sublist (List.Perm.refl _) ?_
  intro document member included
  have active := (included_iff.mp included).1
  rcases mem_map.mp member with ⟨entry, _, rfl⟩
  refine mem_filter.mpr ⟨member, decide_eq_true ?_⟩
  rw [activation_geminiDocument] at active
  rw [state_geminiDocument]
  split_ifs at active ⊢ with loaded
  rfl

theorem sequenced_of_project (projects : project profileResolution targetPath = .ok projection)
    (distinct : (projection.documents.map (·.id)).Nodup) :
    Sequenced projection.documents projection.ordering projection.sequence := by
  cases profileResolution with
  | codexCli value =>
    have shape := codex_shape (check_bind_eq_ok.mp projects).2
    rw [shape.documents] at distinct ⊢
    rw [shape.sequence]
    exact codex_sequenced distinct
  | copilot value =>
    have shape := copilot_shape projects
    rw [shape.documents] at distinct ⊢
    rw [shape.sequence]
    exact possible_sequenced distinct
  | cursor value =>
    have shape := cursor_shape projects
    rw [shape.documents] at distinct ⊢
    rw [shape.sequence]
    exact possible_sequenced distinct
  | modelled value =>
    cases value with
    | claudeCode value =>
      have shape := claude_shape projects
      rw [shape.documents, shape.ordering, shape.sequence]
      exact claude_sequenced value
    | geminiCli value =>
      have shape := gemini_shape projects
      rw [shape.documents] at distinct ⊢
      rw [shape.sequence]
      exact gemini_sequenced distinct

/-! ## Issued resolutions -/

variable {result : EffectiveContextResolution}

/-- A run, with what it found out by the way. -/
structure Run (input : ResolveEffectiveContextInput) (result : EffectiveContextResolution)
    (projection : Projection) : Prop where
  projects : project input.profileResolution input.targetPath = .ok projection
  paths : (projection.documents.map (·.path)).Nodup
  fits : (opposed projection.documents).length ≤ maximumConflicts
  made : ∃ occurrences ambiguities first second,
    addAmbiguities first (((opposed projection.documents).map
      (conflictOf projection.precedence projection.profileId)).flatMap
        conflictAmbiguities) = .ok second ∧
    addAmbiguities second (profileAmbiguities input.profileResolution.analysisIsPartial
      projection.profileId) = .ok ambiguities ∧
    result = resolution input.targetPath projection occurrences
      ((opposed projection.documents).map
        (conflictOf projection.precedence projection.profileId)) ambiguities

theorem exists_run {input : ResolveEffectiveContextInput}
    (ran : resolveEffectiveContext input = .ok result) : ∃ projection, Run input result projection := by
  unfold resolveEffectiveContext resolveProjection at ran
  rcases check_bind_eq_ok.mp ran with ⟨_, ran⟩
  rcases bind_eq_ok.mp ran with ⟨projection, projects, ran⟩
  rcases check_bind_eq_ok.mp ran with ⟨_, ran⟩
  rcases check_bind_eq_ok.mp ran with ⟨apart, ran⟩
  rcases check_bind_eq_ok.mp ran with ⟨_, ran⟩
  rcases bind_eq_ok.mp ran with ⟨imported, _, ran⟩
  rcases bind_eq_ok.mp ran with ⟨opposing, conflicting, ran⟩
  rcases conflicts_eq_ok.mp conflicting with ⟨fits, rfl⟩
  rcases bind_eq_ok.mp ran with ⟨second, more, ran⟩
  rcases bind_eq_ok.mp ran with ⟨last, final, ran⟩
  cases ran
  exact ⟨projection, projects, not_not.mp (failIf_eq_ok.mp apart), fits,
    imported.1, last, imported.2, second, more, final, rfl⟩

theorem issued_documents (issued : Issued result) : (result.documents.map (·.path)).Nodup ∧
    Named result.documents result.profileId := by
  rcases issued with ⟨input, ran⟩
  rcases exists_run ran with ⟨projection, run⟩
  rcases run.made with ⟨_, _, _, _, _, _, rfl⟩
  exact ⟨run.paths, named_of_project run.projects⟩

/-- Without a collision, documents at different paths have different names. -/
theorem nodup_ids (named : Named documents profileId) (paths : (documents.map (·.path)).Nodup)
    (free : IdsDistinguish profileId (documents.map (·.path))) : (documents.map (·.id)).Nodup := by
  have ids : documents.map (·.id) = (documents.map (·.path)).map (documentId profileId) := by
    rw [map_map]
    exact map_congr_left named
  rw [ids]
  exact paths.map_on fun first inFirst second inSecond => free first inFirst second inSecond

theorem issued_sequence (issued : Issued result)
    (free : IdsDistinguish result.profileId (result.documents.map (·.path))) :
    Sequenced result.documents result.ordering result.sequence := by
  have named := issued_documents issued
  have distinct := nodup_ids named.2 named.1 free
  rcases issued with ⟨input, ran⟩
  rcases exists_run ran with ⟨projection, run⟩
  rcases run.made with ⟨_, _, _, _, _, _, rfl⟩
  exact sequenced_of_project run.projects distinct

end AgentContextLint.ProfileProjections
