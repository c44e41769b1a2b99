import AgentContextLint.Resolver.GeminiTrace
import AgentContextLint.Resolver.ProjectionLimits

/-!
# Gemini resolutions that can be projected

Which resolutions of the Gemini CLI profile `resolveEffectiveContext` accepts, without import
graphs: those of a run without old files, unless their files make too many conflicts or
ambiguities (`resolveGemini_projects_iff`). The documents follow each other in the order of their
loads, so that with distinct paths this order has no cycle.
-/

namespace AgentContextLint

open Utf16 Utf8 Metered Sorting List

namespace GeminiCliProfile

/-! ## Accepted snapshots -/

theorem failIf_eq_ok {condition : Prop} [Decidable condition] {code : GeminiCliProfileErrorCode}
    {message : String} {out : Unit} : failIf condition code message = .ok out ↔ ¬ condition :=
  refuseIf_eq_ok

/-- What the checks leave as it is. -/
structure Snapped (rawInput input : ResolveGeminiCliInput) : Prop where
  candidates : input.candidates = rawInput.candidates
  events : input.events = rawInput.events
  trust : input.trustState = rawInput.trustState
  launched : rawInput.events ≠ []

theorem snapshot_eq_ok {rawInput input : ResolveGeminiCliInput}
    (accepted : snapshot rawInput = .ok input) : Snapped rawInput input := by
  unfold snapshot at accepted
  rcases check_bind_eq_ok.mp accepted with ⟨_, accepted⟩
  rcases bind_eq_ok.mp accepted with ⟨_, _, accepted⟩
  rcases check_bind_eq_ok.mp accepted with ⟨_, accepted⟩
  rcases bind_eq_ok.mp accepted with ⟨_, _, accepted⟩
  rcases check_bind_eq_ok.mp accepted with ⟨begins, accepted⟩
  iterate 6 rcases check_bind_eq_ok.mp accepted with ⟨_, accepted⟩
  cases accepted
  refine ⟨rfl, rfl, rfl, ?_⟩
  intro none
  rw [failIf_eq_ok, none] at begins
  exact begins nofun

theorem contextOf_eq_ok {host : GeminiHost} {rawInput : ResolveGeminiCliInput} {context : Context}
    (accepted : contextOf host rawInput = .ok context) : Snapped rawInput context.input := by
  rcases bind_eq_ok.mp accepted with ⟨input, snapped, accepted⟩
  rcases bind_eq_ok.mp accepted with ⟨settings, _, accepted⟩
  cases accepted
  exact snapshot_eq_ok snapped

/-- In a trusted session, no reload comes behind an event that selects a file. -/
def QuietSession (host : GeminiHost) (rawInput : ResolveGeminiCliInput) : Prop :=
  ∀ context, contextOf host rawInput = .ok context → rawInput.trustState = .trusted →
    Quiet context (initialRoots context) rawInput.events

theorem quiet_of_no_reload {context : Context} {roots : List RelativePath}
    {events : List GeminiCliEventSnapshot} (none : ∀ event ∈ events, event.kind ≠ .memoryReload) :
    Quiet context roots events := by
  induction events generalizing roots with
  | nil => trivial
  | cons event rest ih =>
    rcases forall_mem_cons.mp none with ⟨_, later⟩
    exact ⟨Or.inr later, ih later⟩

/-- What holds of a resolution whatever the events are. -/
structure Resolved (rawInput : ResolveGeminiCliInput) (value : GeminiCliResolution)
    (reads : List GeminiRead) : Prop where
  loadsOnce : LoadsOnce rawInput.candidates value.events
  reloads : ∀ decision ∈ value.events, decision.kind = .memoryReload →
    decision.loadedAfterEvent ⊆ decision.added
  untrusted : rawInput.trustState ≠ .trusted → value.documents = [] ∧ reads = [] ∧
    ∀ decision ∈ value.events, decision.loadedAfterEvent = []
  last : ∃ last ∈ value.events.getLast?, last.loadedAfterEvent = value.loadedPaths

/-- The old and the current files of a resolution. -/
structure Split (rawInput : ResolveGeminiCliInput) (value : GeminiCliResolution)
    (old : List RelativePath) (current : List GeminiCliCandidateSnapshot) : Prop where
  documents : value.documents.map (·.path) = old ++ current.map (·.path)
  distinct : (current.map (·.path)).Nodup
  paths : ∀ path, path ∈ value.loadedPaths ↔ path ∈ current.map (·.path)
  known : ∀ candidate ∈ current, candidate ∈ rawInput.candidates

/-- What becomes of an accepted snapshot. -/
structure Outcome (host : GeminiHost) (rawInput : ResolveGeminiCliInput)
    (value : GeminiCliResolution) (reads : List GeminiRead) : Prop where
  resolved : Resolved rawInput value reads
  split : ∃ old current, Split rawInput value old current ∧
    (old = [] ↔ QuietSession host rawInput)

variable {host : GeminiHost} {rawInput : ResolveGeminiCliInput} {context : Context}

theorem Loaded.nodup_paths {candidates : List GeminiCliCandidateSnapshot}
    {old : List RelativePath} {current : List GeminiCliCandidateSnapshot} {state : State}
    (loaded : Loaded candidates old current state) : (current.map (·.path)).Nodup := by
  apply (Nodup.of_map _ loaded.distinct).map_on
  intro first inFirst second inSecond same
  apply Option.some_injective
  rw [← loaded.known first inFirst, ← loaded.known second inSecond, same]

theorem loaded_initialState : Loaded context.input.candidates [] [] (initialState context) where
  documents := rfl
  identities := rfl
  distinct := nodup_nil
  paths := fun _ => Iff.rfl
  known := forall_mem_nil _

theorem outcome_of_trusted {final : State} (within : contextOf host rawInput = .ok context)
    (trusted : rawInput.trustState = .trusted)
    (ran : context.input.events.foldlM (applyEvent context) (initialState context) = .ok final) :
    Outcome host rawInput (resolution context final) final.reads := by
  have snapped := contextOf_eq_ok within
  rcases trace_of_trusted (snapped.trust.trans trusted) ran with ⟨decisions, record, trace⟩
  have decided : final.events = decisions := record
  rcases trace.loaded loaded_initialState with ⟨old, current, loaded, quiet⟩
  rw [snapped.events] at trace quiet
  constructor
  · constructor
    · change LoadsOnce _ final.events
      rw [decided, ← snapped.candidates]
      exact trace.loadsOnce loaded_initialState
    · change ∀ decision ∈ final.events, _
      rw [decided]
      exact trace.reloads
    · exact fun untrusted => absurd trusted untrusted
    · change ∃ last ∈ final.events.getLast?, _
      rw [decided]
      exact trace.last snapped.launched
  · refine ⟨old, current, ⟨loaded.documents, loaded.nodup_paths, ?_, ?_⟩, ?_⟩
    · exact fun path => (mem_sortBy _).trans (loaded.paths path)
    · intro candidate member
      rw [← snapped.candidates]
      exact mem_of_find?_eq_some (loaded.known candidate member)
    · rw [quiet]
      constructor
      · intro conditions other sameContext _
        cases within.symm.trans sameContext
        exact conditions.2.2
      · exact fun session => ⟨rfl, Or.inl rfl, session context within trusted⟩

theorem silent_initialState : Silent (initialState context) where
  documents := rfl
  loadedPaths := rfl
  reads := rfl
  events := forall_mem_nil _

theorem outcome_of_untrusted {final : State} (within : contextOf host rawInput = .ok context)
    (untrusted : rawInput.trustState ≠ .trusted)
    (ran : context.input.events.foldlM (applyEvent context) (initialState context) = .ok final) :
    Outcome host rawInput (resolution context final) final.reads := by
  have snapped := contextOf_eq_ok within
  rcases silent_of_untrusted (fun trusted => untrusted (snapped.trust.symm.trans trusted))
    silent_initialState ran with ⟨silent, count⟩
  constructor
  · constructor
    · intro before segment after split _
      have nothing : segment.flatMap (·.added) = [] := by
        apply flatMap_eq_nil_iff.mpr
        intro decision member
        have known : decision ∈ final.events := by
          rw [show final.events = before ++ segment ++ after from split]
          exact mem_append_left _ (mem_append_right _ member)
        exact (silent.events decision known).1
      rw [nothing]
      exact nodup_nil
    · intro decision member _
      rw [(silent.events decision member).2]
      exact nil_subset _
    · exact fun _ => ⟨silent.documents, silent.reads, fun decision member =>
        (silent.events decision member).2⟩
    · have some : final.events ≠ [] := by
        intro none
        rw [none, snapped.events] at count
        have few : rawInput.events.length = 0 := by
          rw [length_nil] at count
          omega
        exact snapped.launched (length_eq_zero_iff.mp few)
      refine ⟨final.events.getLast some, getLast?_eq_some_getLast some, ?_⟩
      rw [(silent.events _ (getLast_mem some)).2]
      change _ = sortBy compareUnits final.loadedPaths
      rw [silent.loadedPaths]
      rfl
  · refine ⟨[], [], ⟨?_, nodup_nil, ?_, forall_mem_nil _⟩, ?_⟩
    · exact congrArg (map (·.path)) silent.documents
    · intro path
      change path ∈ sortBy compareUnits final.loadedPaths ↔ _
      rw [silent.loadedPaths]
      rfl
    · exact iff_of_true rfl fun _ _ trusted => absurd trusted untrusted

theorem outcome {value : GeminiCliResolution} {reads : List GeminiRead}
    (accepted : resolveGeminiCliContext host rawInput = .ok (value, reads)) :
    Outcome host rawInput value reads := by
  rcases bind_eq_ok.mp accepted with ⟨context, within, accepted⟩
  rcases bind_eq_ok.mp accepted with ⟨final, ran, accepted⟩
  cases accepted
  by_cases trusted : rawInput.trustState = .trusted
  · exact outcome_of_trusted within trusted ran
  · exact outcome_of_untrusted within trusted ran

end GeminiCliProfile

/-! ## The projection -/

namespace EffectiveContext

variable {value : GeminiCliResolution} {targetPath : RelativePath}
  {result : EffectiveContextResolution}

theorem paths_geminiDocuments (value : GeminiCliResolution) :
    (geminiDocuments value).map (·.path) = value.documents.map (·.path) := by
  unfold geminiDocuments
  rw [map_map]
  have same : ((·.path) ∘ geminiDocument : GeminiCliDocumentDecision × Nat → _) =
      (·.path) ∘ Prod.fst := rfl
  rw [same, ← map_map, zipIdx_map_fst]

theorem length_geminiDocuments (value : GeminiCliResolution) :
    (geminiDocuments value).length = value.documents.length := by
  rw [geminiDocuments, length_map, length_zipIdx]

theorem id_geminiDocument {document : EffectiveContextDocument}
    (member : document ∈ geminiDocuments value) :
    document.id = documentId geminiProfileId document.path := by
  rcases mem_map.mp member with ⟨entry, _, rfl⟩
  rfl

variable (entry : GeminiCliDocumentDecision × Nat)

theorem state_geminiDocument :
    (geminiDocument entry).state = if entry.1.isLoaded then .effective else .unavailable := rfl

theorem activation_geminiDocument :
    (geminiDocument entry).activation = if entry.1.isLoaded then .active else .indeterminate := rfl

/-- Each file of a resolution may be in effect. -/
theorem length_opposed_geminiDocuments (value : GeminiCliResolution) :
    (opposed (geminiDocuments value)).length = value.documents.length.choose 2 := by
  have whole : (possible (geminiDocuments value)).filter
      (fun entry => entry.state ≠ .shadowed ∧ entry.state ≠ .empty) = geminiDocuments value := by
    unfold possible
    rw [filter_filter]
    apply filter_eq_self.mpr
    intro document member
    rcases mem_map.mp member with ⟨entry, _, rfl⟩
    rw [state_geminiDocument, activation_geminiDocument]
    cases entry.1.isLoaded <;> rfl
  rw [opposed, whole, length_pairs, length_geminiDocuments]

/-- Where documents have distinct identifiers, the order of their loads has no cycle. -/
theorem loadOrder_acyclic {documents : List EffectiveContextDocument}
    (distinct : (documents.map (·.id)).Nodup) : Arcs.Acyclic ((loadOrder documents).map arc) := by
  apply Arcs.acyclic_of_rank ((documents.map (·.id)).idxOf ·)
  intro edge member
  unfold loadOrder at member
  rw [map_map] at member
  rcases mem_map.mp member with ⟨⟨after, before⟩, adjacent, rfl⟩
  rcases mem_iff_getElem.mp adjacent with ⟨i, inside, eq⟩
  rw [length_zip, length_tail] at inside
  rw [getElem_zip, getElem_tail, Prod.mk.injEq] at eq
  rcases eq with ⟨rfl, rfl⟩
  have rank (j : Nat) (small : j < documents.length) :
      (documents.map (·.id)).idxOf documents[j].id = j := by
    have here := distinct.idxOf_getElem j (by rwa [length_map])
    rwa [getElem_map] at here
  change (documents.map (·.id)).idxOf documents[i].id <
    (documents.map (·.id)).idxOf documents[i + 1].id
  rw [rank, rank]
  exact Nat.lt_succ_self i

/-- The requests of a run without import graphs. -/
def geminiRequests (value : GeminiCliResolution) : List AmbiguityRequest :=
  geminiAmbiguities value ++
  (((opposed (geminiDocuments value)).map
    (conflictOf (geminiPrecedence value) geminiProfileId)).flatMap conflictAmbiguities ++
  profileAmbiguities value.analysisIsPartial geminiProfileId)

theorem resolveGemini_documents
    (ran : resolveEffectiveContext ⟨[], .geminiCli value, targetPath⟩ = .ok result) :
    result.documents = geminiDocuments value ∧ result.precedence = geminiPrecedence value := by
  rcases resolveEffectiveContext_eq_ok.mp ran with ⟨_, projected, projects, _, _, _, _, _, rfl⟩
  rcases bind_eq_ok.mp projects with ⟨_, _, projects⟩
  cases projects
  exact ⟨rfl, rfl⟩

/-- A run without import graphs. -/
theorem resolveGemini_accepts :
    (∃ result, resolveEffectiveContext ⟨[], .geminiCli value, targetPath⟩ = .ok result) ↔
      RepositoryPath.isRepositoryRelativePath targetPath = true ∧
      value.documents.length ≤ maximumDocuments ∧ (value.documents.map (·.path)).Nodup ∧
      value.documents.length.choose 2 ≤ maximumConflicts ∧
      distinctAmbiguities (geminiRequests value) ≤ maximumAmbiguities := by
  rw [← length_geminiDocuments, ← paths_geminiDocuments, length_geminiDocuments,
    ← length_opposed_geminiDocuments]
  constructor
  · intro accepted
    rcases accepted with ⟨result, ran⟩
    rcases resolveEffectiveContext_eq_ok.mp ran with
      ⟨target, projected, projects, few, apart, fits, last, more, _⟩
    rcases bind_eq_ok.mp projects with ⟨initial, first, projects⟩
    cases projects
    rw [← length_geminiDocuments]
    exact ⟨target, few, apart, fits,
      (Kept.nil.addAll (addAmbiguities_append.mpr ⟨initial, first, more⟩)).distinct_le⟩
  · intro conditions
    rcases conditions with ⟨target, few, apart, fits, room⟩
    rcases Kept.nil.exists_addAll room with ⟨last, requested⟩
    rcases addAmbiguities_append.mp requested with ⟨initial, first, more⟩
    rw [← length_geminiDocuments] at few
    exact ⟨_, resolveEffectiveContext_eq_ok.mpr ⟨target, _, bind_eq_ok.mpr ⟨initial, first, rfl⟩,
      few, apart, fits, last, more, rfl⟩⟩

/-- What a projection is to show of a resolution, and what is to hold of the resolution itself. -/
structure GeminiProjects (rawInput : ResolveGeminiCliInput) (value : GeminiCliResolution)
    (reads : List GeminiRead) (targetPath : RelativePath) : Prop where
  projects : ∃ result, resolveEffectiveContext ⟨[], .geminiCli value, targetPath⟩ = .ok result ∧
    (result.documents.map (·.path)).Nodup ∧
    (∃ last ∈ value.events.getLast?, ∀ path,
      path ∈ result.documents.map (·.path) ↔ path ∈ last.loadedAfterEvent) ∧
    Arcs.Acyclic (result.precedence.map arc)
  loadsOnce : GeminiCliProfile.LoadsOnce rawInput.candidates value.events
  reloads : ∀ decision ∈ value.events, decision.kind = .memoryReload →
    decision.loadedAfterEvent ⊆ decision.added
  untrusted : rawInput.trustState ≠ .trusted → value.documents = [] ∧ reads = [] ∧
    ∀ decision ∈ value.events, decision.loadedAfterEvent = []

theorem few_of_choose {n : Nat} (fits : n.choose 2 ≤ maximumConflicts) : n ≤ maximumDocuments := by
  by_contra many
  have more := Nat.choose_le_choose 2 (Nat.le_of_not_le many)
  have crowded : maximumConflicts < maximumDocuments.choose 2 := by
    rw [Nat.choose_two_right]
    decide
  omega

theorem nodup_geminiEffective_ids {paths : List RelativePath}
    (free : IdsDistinguish geminiProfileId paths)
    (known : ∀ path ∈ value.documents.map (·.path), path ∈ paths)
    (distinct : (value.documents.map (·.path)).Nodup) :
    ((geminiEffective value).map (·.id)).Nodup := by
  apply Nodup.sublist (filter_sublist.map _)
  have ids : (geminiDocuments value).map (·.id) =
      ((geminiDocuments value).map (·.path)).map (documentId geminiProfileId) := by
    rw [map_map]
    exact map_congr_left fun document member => id_geminiDocument member
  rw [ids, paths_geminiDocuments]
  apply distinct.map_on
  intro first inFirst second inSecond same
  exact free first (known first inFirst) second (known second inSecond) same

/-- A trace can be projected exactly if no reload comes behind an event that selects a file, and
its files make no more conflicts and ambiguities than the limits admit. -/
theorem resolveGemini_projects_iff {host : GeminiHost} {rawInput : ResolveGeminiCliInput}
    {value : GeminiCliResolution} {reads : List GeminiRead} {targetPath : RelativePath}
    (accepted : GeminiCliProfile.resolveGeminiCliContext host rawInput = .ok (value, reads))
    (target : RepositoryPath.isRepositoryRelativePath targetPath = true)
    (free : IdsDistinguish geminiProfileId (rawInput.candidates.map (·.path))) :
    GeminiProjects rawInput value reads targetPath ↔
      GeminiCliProfile.QuietSession host rawInput ∧
        value.documents.length.choose 2 ≤ maximumConflicts ∧
        distinctAmbiguities (geminiRequests value) ≤ maximumAmbiguities := by
  rcases GeminiCliProfile.outcome accepted with ⟨resolved, old, current, split, quiet⟩
  rw [← quiet]
  constructor
  · intro projected
    rcases projected.projects with ⟨result, ran, _, exact_, _⟩
    rcases resolveGemini_accepts.mp ⟨result, ran⟩ with ⟨_, _, apart, fits, room⟩
    refine ⟨?_, fits, room⟩
    rcases exact_ with ⟨last, isLast, same⟩
    rcases resolved.last with ⟨other, isOther, after⟩
    cases isLast.symm.trans isOther
    rw [(resolveGemini_documents ran).1, paths_geminiDocuments, after] at same
    rw [split.documents] at same apart
    apply eq_nil_iff_forall_not_mem.mpr
    intro path inOld
    have inCurrent := (split.paths path).mp ((same path).mp (mem_append_left _ inOld))
    exact disjoint_of_nodup_append apart inOld inCurrent
  · intro conditions
    rcases conditions with ⟨rfl, fits, room⟩
    have documents := split.documents
    rw [nil_append] at documents
    have apart : (value.documents.map (·.path)).Nodup := documents ▸ split.distinct
    rcases resolveGemini_accepts.mpr ⟨target, few_of_choose fits, apart, fits, room⟩ with
      ⟨result, ran⟩
    rcases resolveGemini_documents ran with ⟨sameDocuments, samePrecedence⟩
    refine ⟨⟨result, ran, ?_, ?_, ?_⟩, resolved.loadsOnce, resolved.reloads, resolved.untrusted⟩
    · rw [sameDocuments, paths_geminiDocuments]
      exact apart
    · rcases resolved.last with ⟨last, isLast, after⟩
      refine ⟨last, isLast, fun path => ?_⟩
      rw [sameDocuments, paths_geminiDocuments, after, documents, split.paths]
    · rw [samePrecedence]
      apply loadOrder_acyclic
      apply nodup_geminiEffective_ids free _ apart
      intro path member
      rw [documents] at member
      rcases mem_map.mp member with ⟨candidate, inCurrent, rfl⟩
      exact mem_map_of_mem (split.known candidate inCurrent)

/-! ## A reload of one file -/

def defaultHost : GeminiHost where
  mergeSettings _ := .ok ⟨[], true, {
    discoveryMaxDirs := 200
    fileNames := [js "GEMINI.md"]
    importFormat := .tree
    includeDirectories := []
    loadMemoryFromIncludeDirectories := false
    memoryBoundaryMarkers := [js ".git"] }⟩
  parse _ _ := none
  loadImports _ := .error "entryPath must be a canonical repository file"
  compareLocale := compareUnits

def launch : GeminiCliEventSnapshot :=
  ⟨js "launch", .launch, some RepositoryPath.repositoryRoot⟩

def reload : GeminiCliEventSnapshot := ⟨js "reload", .memoryReload, none⟩

/-- A trusted session on one file, whose bytes cannot be had. -/
def geminiSession (events : List GeminiCliEventSnapshot) : ResolveGeminiCliInput where
  boundaryMarkerDirectories := []
  candidates := [⟨none, [], .unavailable, js "GEMINI.md"⟩]
  events := events
  externalContext := .explicitSynthetic
  settingsLayers := []
  trustState := .trusted
  workspaceRoots := [RepositoryPath.repositoryRoot]

/-- A session on two files that is launched at the root and then reads beside the lower one. -/
def readingSession : ResolveGeminiCliInput :=
  { geminiSession [launch, ⟨js "read", .readPath, some (js "a/b.ts")⟩] with
    candidates := [⟨none, [], .unavailable, js "GEMINI.md"⟩,
      ⟨none, [], .unavailable, js "a/GEMINI.md"⟩] }

/-- The trace of a session that reads a file can be projected. -/
theorem resolveGemini_projects_launch : ∃ value reads,
    GeminiCliProfile.resolveGeminiCliContext defaultHost readingSession = .ok (value, reads) ∧
    value.documents.map (·.path) = [js "GEMINI.md", js "a/GEMINI.md"] ∧
    GeminiProjects readingSession value reads (js "a/b.ts") := by
  have facts : (GeminiCliProfile.resolveGeminiCliContext defaultHost readingSession).toOption.map
      (fun outcome => decide (outcome.1.documents.map (·.path) = [js "GEMINI.md", js "a/GEMINI.md"] ∧
        distinctAmbiguities (geminiRequests outcome.1) ≤ maximumAmbiguities)) = some true := by
    decide +kernel
  rcases Option.map_eq_some_iff.mp facts with ⟨⟨value, reads⟩, resolved, facts⟩
  rcases of_decide_eq_true facts with ⟨paths, few⟩
  have accepted := eq_ok_of_toOption resolved
  have free : IdsDistinguish geminiProfileId (readingSession.candidates.map (·.path)) := by
    unfold IdsDistinguish
    decide +kernel
  have two : value.documents.length = 2 := by
    rw [← length_map, paths]
    rfl
  refine ⟨value, reads, accepted, paths,
    (resolveGemini_projects_iff accepted (by decide +kernel) free).mpr ⟨?_, ?_, few⟩⟩
  · intro context _ _
    exact GeminiCliProfile.quiet_of_no_reload (by decide)
  · rw [two]
    decide

/-- After a reload, the file is there twice, and the resolution cannot be projected. -/
theorem reload_not_projected : ∃ value reads,
    GeminiCliProfile.resolveGeminiCliContext defaultHost (geminiSession [launch, reload]) =
      .ok (value, reads) ∧
    ∀ result, resolveEffectiveContext ⟨[], .geminiCli value, js "a"⟩ ≠ .ok result := by
  have accepted : ∃ outcome, GeminiCliProfile.resolveGeminiCliContext defaultHost
      (geminiSession [launch, reload]) = .ok outcome ∧
        outcome.1.documents.map (·.path) = [js "GEMINI.md", js "GEMINI.md"] := ⟨_, rfl, rfl⟩
  rcases accepted with ⟨⟨value, reads⟩, accepted, twice⟩
  refine ⟨value, reads, accepted, fun result ran => ?_⟩
  rcases resolveGemini_accepts.mp ⟨result, ran⟩ with ⟨_, _, apart, _⟩
  rw [twice] at apart
  exact (nodup_cons.mp apart).1 mem_cons_self

end EffectiveContext

end AgentContextLint
