import AgentContextLint.Resolver.ProjectionLimits

/-!
# Claude Code resolutions that can be projected

Which resolutions of the Claude Code profile `resolveEffectiveContext` accepts, without import
graphs.

* What is documented to stand before a file lies higher up, or beside it under another name, so
  that a number of its path grows along the documented order (`pathRank_lt`).
-/

namespace AgentContextLint

open Utf16 Utf8 Metered Sorting List
open RepositoryPath (isRepositoryRelativePath repositoryRoot)

/-! ## The documented order -/

namespace ClaudeCodeProfile

variable {candidate : ClaudeInstructionCandidateSnapshot} {readers : ClaudeReaders}
  {rawInput input : ResolveClaudeCodeProfileInput}

/-- How deep a directory is: longer below, and least at the root. -/
def directoryRank (path : RelativePath) : Nat :=
  if path = repositoryRoot then 0 else path.length + 1

theorem directoryRank_lt {above below : RelativePath} (contained : contains above below = true)
    (apart : above ≠ below) : directoryRank above < directoryRank below := by
  unfold contains at contained
  simp only [Bool.or_eq_true, beq_iff_eq] at contained
  unfold directoryRank
  rcases contained with (root | same) | inside
  · have notRoot : below ≠ repositoryRoot := fun eq => apart (root.trans eq.symm)
    rw [if_pos root, if_neg notRoot]
    exact Nat.succ_pos _
  · exact absurd same.symm apart
  · have longer := ( isPrefixOf_iff_prefix.mp inside).length_le
    rw [length_append, length_singleton] at longer
    have notRoot : below ≠ repositoryRoot := by
      intro root
      have one : below.length = 1 := by rw [root]; rfl
      have empty : above = [] := length_eq_zero_iff.mp (by omega)
      rw [empty, root] at inside
      revert inside
      decide
    rw [if_neg notRoot]
    split_ifs
    · exact Nat.succ_pos _
    · omega

/-- A number that grows along the documented order. -/
def pathRank (path : RelativePath) : Nat :=
  2 * directoryRank (directory path) + if basename path = js "CLAUDE.local.md" then 1 else 0

theorem basename_of_location (located : locationMatches candidate = true) :
    (candidate.kind = .memoryLocal → basename candidate.path = js "CLAUDE.local.md") ∧
      (candidate.kind = .memoryShared → basename candidate.path = js "CLAUDE.md") := by
  unfold locationMatches at located
  constructor
  · intro kind
    rw [kind] at located
    simpa using (Bool.and_eq_true_iff.mp located).2
  · intro kind
    rw [kind] at located
    simpa using (Bool.and_eq_true_iff.mp located).2

theorem pathRank_lt {candidate other : ClaudeInstructionCandidateSnapshot}
    (located : locationMatches candidate = true) (otherLocated : locationMatches other = true)
    (before : isBefore candidate other = true) : pathRank other.path < pathRank candidate.path := by
  unfold isBefore at before
  split_ifs at before with _ _ apart
  · have deeper := directoryRank_lt before apart
    unfold pathRank
    split_ifs <;> omega
  · have kinds : candidate.kind = .memoryLocal ∧ other.kind = .memoryShared := by
      simpa using before
    have here := (basename_of_location located).1 kinds.1
    have there := (basename_of_location otherLocated).2 kinds.2
    have differ : js "CLAUDE.md" ≠ js "CLAUDE.local.md" := by decide
    unfold pathRank
    rw [not_not.mp apart, if_pos here, there, if_neg differ]
    omega

/-! ## Accepted snapshots -/

theorem failIf_eq_ok {condition : Prop} [Decidable condition] {code : ClaudeCodeProfileErrorCode}
    {message : String} {out : Unit} : failIf condition code message = .ok out ↔ ¬ condition :=
  refuseIf_eq_ok

/-- What the checks establish of the candidates. -/
structure AcceptedCandidates (candidates : List ClaudeInstructionCandidateSnapshot) : Prop where
  few : candidates.length ≤ maximumCandidates
  located : ∀ candidate ∈ candidates, locationMatches candidate = true

theorem candidateSnapshot_eq_ok
    (accepted : candidateSnapshot candidate = .ok ()) : locationMatches candidate = true := by
  unfold candidateSnapshot at accepted
  simp only [check_bind_eq_ok, failIf_eq_ok] at accepted
  exact not_not.mp accepted.2.2.2.2

theorem snapshot_eq_ok (accepted : snapshot rawInput = .ok input) :
    input.candidates = sortBy compareCandidates rawInput.candidates ∧
      AcceptedCandidates rawInput.candidates := by
  unfold snapshot dense at accepted
  simp only [check_bind_eq_ok, failIf_eq_ok] at accepted
  rcases accepted with ⟨_, _, _, few, each, _, _, _, _, accepted⟩
  simp only [bind_eq_ok, pure, Except.pure, Except.ok.injEq] at accepted
  rcases accepted with ⟨_, _, rfl⟩
  exact ⟨rfl, Nat.le_of_not_lt few, fun candidate member =>
    candidateSnapshot_eq_ok (forM_eq_ok.mp each candidate member)⟩

theorem candidateDecision_eq_ok {input : ResolveClaudeCodeProfileInput} {decision : ClaudeCandidateDecision}
    (decided : candidateDecision readers input candidate = .ok decision) :
    decision.path = candidate.path ∧ decision.orderAfter = orderAfter candidate input.candidates := by
  unfold candidateDecision at decided
  simp only [bind_eq_ok, pure, Except.pure, Except.ok.injEq] at decided
  rcases decided with ⟨_, _, _, _, _, _, rfl⟩
  exact ⟨rfl, rfl⟩

/-- What a resolution has of its snapshot. -/
structure Resolved (rawInput : ResolveClaudeCodeProfileInput)
    (resolution : ClaudeCodeProfileResolution) : Prop where
  paths : (resolution.candidates.map (·.path)).Perm (rawInput.candidates.map (·.path))
  few : resolution.candidates.length ≤ maximumCandidates
  increases : ∀ decision ∈ resolution.candidates, ∀ path ∈ decision.orderAfter,
    path ∈ resolution.candidates.map (·.path) ∧ pathRank path < pathRank decision.path

theorem resolved {rawInput : ResolveClaudeCodeProfileInput}
    {resolution : ClaudeCodeProfileResolution}
    (accepted : resolveClaudeCodeProfile readers rawInput = .ok resolution) :
    Resolved rawInput resolution := by
  unfold resolveClaudeCodeProfile at accepted
  simp only [bind_eq_ok, pure, Except.pure, Except.ok.injEq] at accepted
  rcases accepted with ⟨input, snapped, decisions, decided, rfl⟩
  rcases snapshot_eq_ok snapped with ⟨sorted, checked⟩
  have each := mapM_eq_ok.mp decided
  have samePaths : decisions.map (·.path) = input.candidates.map (·.path) := by
    rw [← forall₂_eq_eq_eq, forall₂_map_left_iff, forall₂_map_right_iff]
    exact each.flip.imp fun _ _ made => (candidateDecision_eq_ok made).1
  have perm : input.candidates.Perm rawInput.candidates := sorted ▸ sortBy_perm _ _
  constructor
  · change (decisions.map (·.path)).Perm _
    rw [samePaths]
    exact perm.map _
  · change decisions.length ≤ _
    rw [← length_map (f := (·.path)), samePaths, length_map, perm.length_eq]
    exact checked.few
  · intro decision member path after
    rcases exists_of_mem_mapM decided member with ⟨candidate, inCandidates, made⟩
    rcases candidateDecision_eq_ok made with ⟨samePath, sameOrder⟩
    rw [sameOrder, orderAfter, mem_sortBy] at after
    rcases mem_map.mp after with ⟨other, found, rfl⟩
    rcases mem_filter.mp found with ⟨inOthers, before⟩
    have rank := pathRank_lt (checked.located candidate (perm.mem_iff.mp inCandidates))
      (checked.located other (perm.mem_iff.mp inOthers)) before
    refine ⟨?_, samePath ▸ rank⟩
    change other.path ∈ decisions.map (·.path)
    rw [samePaths]
    exact mem_map_of_mem inOthers

end ClaudeCodeProfile

/-! ## The projection -/

namespace EffectiveContext

open ClaudeCodeProfile (pathRank profileId resolveClaudeCodeProfile resolved)

variable {value : ClaudeCodeProfileResolution} {document : EffectiveContextDocument}
  {path : RelativePath}

theorem documentsOf_perm (value : ClaudeCodeProfileResolution) :
    (documentsOf value).Perm (value.candidates.map claudeDocument) := sortBy_perm _ _

theorem paths_documentsOf (value : ClaudeCodeProfileResolution) :
    ((documentsOf value).map (·.path)).Perm (value.candidates.map (·.path)) := by
  have perm := (documentsOf_perm value).map (·.path)
  rwa [map_map] at perm

theorem id_eq (member : document ∈ documentsOf value) :
    document.id = documentId profileId document.path := by
  rcases mem_map.mp ((documentsOf_perm value).mem_iff.mp member) with ⟨candidate, _, rfl⟩
  rfl

theorem documentAt_eq_some (found : documentAt (documentsOf value) path = some document) :
    document ∈ documentsOf value ∧ document.path = path :=
  ⟨mem_reverse.mp (mem_of_find?_eq_some found), by simpa using find?_some found⟩

/-- An edge leads from a file to one that is loaded behind it. -/
theorem mem_projectedPrecedence {edge : EffectiveContextPrecedence}
    (member : edge ∈ projectedPrecedence value) :
    ∃ candidate ∈ value.candidates, ∃ path ∈ candidate.orderAfter,
      arc edge = (documentId profileId path, documentId profileId candidate.path) := by
  rcases mem_flatMap.mp member with ⟨candidate, inCandidates, made⟩
  refine ⟨candidate, inCandidates, ?_⟩
  unfold precedenceOf at made
  split at made
  · cases made
  · next after foundAfter =>
      rcases mem_filterMap.mp made with ⟨path, inOrder, found⟩
      rcases Option.map_eq_some_iff.mp found with ⟨before, foundBefore, rfl⟩
      rcases documentAt_eq_some foundAfter with ⟨inAfter, afterPath⟩
      rcases documentAt_eq_some foundBefore with ⟨inBefore, beforePath⟩
      refine ⟨path, inOrder, ?_⟩
      rw [arc, id_eq inAfter, id_eq inBefore, afterPath, beforePath]

/-- The number of the path that a document identifier stands for. -/
def idRank (paths : List RelativePath) (id : Text) : Nat :=
  ((paths.find? fun path => documentId profileId path = id).map pathRank).getD 0

theorem idRank_documentId {paths : List RelativePath} (free : IdsDistinguish profileId paths) (member : path ∈ paths) :
    idRank paths (documentId profileId path) = pathRank path := by
  unfold idRank
  cases found : paths.find? fun other => documentId profileId other = documentId profileId path with
  | none =>
    have absent := find?_eq_none.mp found path member
    simp at absent
  | some other =>
    have same := free other (mem_of_find?_eq_some found) path member
      (by simpa using find?_some found)
    rw [same]
    rfl

/-- The documented order among the documents leads to greater numbers. -/
theorem idRank_increases {rawInput : ResolveClaudeCodeProfileInput}
    (from_ : ClaudeCodeProfile.Resolved rawInput value)
    (free : IdsDistinguish profileId (value.candidates.map (·.path))) :
    ∀ edge ∈ (projectedPrecedence value).map arc, idRank (value.candidates.map (·.path)) edge.1 <
        idRank (value.candidates.map (·.path)) edge.2 := by
  intro edge member
  rcases mem_map.mp member with ⟨precedence, inPrecedence, rfl⟩
  rcases mem_projectedPrecedence inPrecedence with ⟨candidate, inCandidates, path, inOrder, eq⟩
  rcases from_.increases candidate inCandidates path inOrder with ⟨known, less⟩
  rw [eq, idRank_documentId free known, idRank_documentId free (mem_map_of_mem inCandidates)]
  exact less

theorem ids_nodup (distinct : (value.candidates.map (·.path)).Nodup)
    (free : IdsDistinguish profileId (value.candidates.map (·.path))) :
    ((documentsOf value).map (·.id)).Nodup := by
  have paths := (paths_documentsOf value).nodup_iff.mpr distinct
  have ids : (documentsOf value).map (·.id) =
      ((documentsOf value).map (·.path)).map (documentId profileId) := by
    rw [map_map]
    exact map_congr_left fun document member => id_eq member
  rw [ids]
  apply paths.map_on
  intro first inFirst second inSecond same
  exact free first ((paths_documentsOf value).mem_iff.mp inFirst) second
    ((paths_documentsOf value).mem_iff.mp inSecond) same

/-- Edges that lead to greater numbers let every document be sequenced. -/
theorem topologicalSequence_perm {documents : List EffectiveContextDocument}
    {edges : List EffectiveContextPrecedence} (distinct : (documents.map (·.id)).Nodup)
    (rank : Text → Nat) (increases : ∀ edge ∈ edges.map arc, rank edge.1 < rank edge.2) :
    (topologicalSequence documents edges).sequence.Perm (documents.map (·.id)) ∧
      (topologicalSequence documents edges).ambiguities = [] := by
  have same : (documents.map (·.id)).eraseDups.Perm (documents.map (·.id)) :=
    (perm_ext_iff_of_nodup (nodup_eraseDups _) distinct).mpr fun _ => mem_eraseDups
  have whole : (topologicalSequence documents edges).sequence.Perm
      (documents.map (·.id)).eraseDups := by
    unfold topologicalSequence
    apply SourceRemoval.sequence_perm rank _ _ (nodup_eraseDups _)
    · exact fun edge member => increases edge (mem_filter.mp member).1
    · exact fun edge member => (of_decide_eq_true (mem_filter.mp member).2).1
  exact ⟨whole.trans same, if_neg (Nat.not_lt_of_le whole.length_eq.ge)⟩

/-! ## The resolver -/

/-- The requests of a run without import graphs and without a cycle. -/
def ambiguityRequests (value : ClaudeCodeProfileResolution) : List AmbiguityRequest :=
  resolutionAmbiguities value ++
  (((opposed (documentsOf value)).map
    (conflictOf (projectedPrecedence value) profileId)).flatMap conflictAmbiguities ++
  profileAmbiguities value.analysisIsPartial profileId)

/-- The number of pairs of files that are not inactive. -/
def conflictOpportunities (value : ClaudeCodeProfileResolution) : Nat :=
  (value.candidates.countP (·.activation ≠ .inactive)).choose 2

theorem possible_unshadowed (value : ClaudeCodeProfileResolution) :
    (possible (documentsOf value)).filter (fun entry => entry.state ≠ .shadowed ∧ entry.state ≠ .empty) =
      possible (documentsOf value) := by
  apply filter_eq_self.mpr
  intro document member
  rcases mem_map.mp ((documentsOf_perm value).mem_iff.mp (mem_filter.mp member).1) with
    ⟨candidate, _, rfl⟩
  change decide (claudeState candidate.activation ≠ _ ∧ claudeState candidate.activation ≠ _) = _
  cases candidate.activation <;> rfl

theorem length_possible (value : ClaudeCodeProfileResolution) :
    (possible (documentsOf value)).length = value.candidates.countP (·.activation ≠ .inactive) := by
  rw [possible, ← countP_eq_length_filter, (documentsOf_perm value).countP_eq, countP_map]
  rfl

theorem length_opposed (value : ClaudeCodeProfileResolution) :
    (opposed (documentsOf value)).length = conflictOpportunities value := by
  rw [opposed, possible_unshadowed, length_pairs, length_possible, conflictOpportunities]

/-- What a projection is to show of its resolution. -/
structure Projects (value : ClaudeCodeProfileResolution) (result : EffectiveContextResolution) :
    Prop where
  documents : (result.documents.map fun document => (document.path, document.activation)).Perm
    (value.candidates.map fun candidate => (candidate.path, candidate.activation))
  paths : (result.documents.map (·.path)).Nodup
  ids : (result.documents.map (·.id)).Nodup
  acyclic : Arcs.Acyclic (result.precedence.map arc)
  sequence : result.sequence.Perm
    ((result.documents.filter (·.activation ≠ .inactive)).map (·.id))

def orderedDocuments (value : ClaudeCodeProfileResolution) : TopologicalSequence :=
  topologicalSequence (possible (documentsOf value)) (projectedPrecedence value)

variable {targetPath : RelativePath} {result : EffectiveContextResolution} {projected : Projection}

theorem projectClaude_eq_ok (acyclic : (orderedDocuments value).ambiguities = []) : projectClaude value = .ok projected ↔
      ∃ ambiguities, addAmbiguities [] (resolutionAmbiguities value) = .ok ambiguities ∧
        projected = projection value (orderedDocuments value) ambiguities := by
  unfold projectClaude
  change (addAmbiguities [] (resolutionAmbiguities value) >>= fun ambiguities =>
    addAmbiguities ambiguities (orderedDocuments value).ambiguities >>= fun ambiguities =>
      Except.ok (projection value (orderedDocuments value) ambiguities)) = _ ↔ _
  rw [acyclic, bind_eq_ok]
  apply exists_congr
  intro ambiguities
  apply and_congr_right
  intro _
  exact ⟨fun eq => (Except.ok.inj eq).symm, fun eq => congrArg Except.ok eq.symm⟩

/-- A run without import graphs and without a cycle. -/
theorem resolveClaude_eq_ok (acyclic : (orderedDocuments value).ambiguities = []) :
    resolveEffectiveContext ⟨[], .claudeCode value, targetPath⟩ = .ok result ↔
      isRepositoryRelativePath targetPath = true ∧
      value.candidates.length ≤ maximumDocuments ∧ (value.candidates.map (·.path)).Nodup ∧
      conflictOpportunities value ≤ maximumConflicts ∧
      ∃ ambiguities, addAmbiguities [] (ambiguityRequests value) = .ok ambiguities ∧
        result = resolution targetPath
          (projection value (orderedDocuments value) ambiguities) []
          ((opposed (documentsOf value)).map
            (conflictOf (projectedPrecedence value) profileId)) ambiguities := by
  have few : (documentsOf value).length = value.candidates.length := by
    rw [(documentsOf_perm value).length_eq, length_map]
  have distinct := (paths_documentsOf value).nodup_iff
  rw [resolveEffectiveContext_eq_ok, ← few, ← distinct, ← length_opposed]
  constructor
  · intro conditions
    rcases conditions with ⟨target, projected, projects, bounded, apart, fits, last, more, rfl⟩
    rcases (projectClaude_eq_ok acyclic).mp projects with ⟨initial, first, rfl⟩
    exact ⟨target, bounded, apart, fits, last, addAmbiguities_append.mpr ⟨initial, first, more⟩, rfl⟩
  · intro conditions
    rcases conditions with ⟨target, bounded, apart, fits, last, requested, rfl⟩
    rcases addAmbiguities_append.mp requested with ⟨initial, first, more⟩
    exact ⟨target, _, (projectClaude_eq_ok acyclic).mpr ⟨initial, first, rfl⟩, bounded, apart, fits,
      last, more, rfl⟩

/-- A projection has the documents of its resolution. -/
theorem documents_of_projectClaude
    (projects : projectClaude value = .ok projected) : projected.documents = documentsOf value := by
  rcases bind_eq_ok.mp projects with ⟨_, _, projects⟩
  rcases bind_eq_ok.mp projects with ⟨_, _, projects⟩
  cases projects
  rfl

/-- An accepted snapshot can be projected exactly if no path comes twice among its candidates and
their files make no more conflicts and ambiguities than the limits admit. -/
theorem resolveEffectiveContext_projects {readers : ClaudeReaders}
    {rawInput : ResolveClaudeCodeProfileInput} {value : ClaudeCodeProfileResolution}
    {targetPath : RelativePath}
    (accepted : resolveClaudeCodeProfile readers rawInput = .ok value)
    (target : isRepositoryRelativePath targetPath = true)
    (free : IdsDistinguish profileId (rawInput.candidates.map (·.path))) :
    (∃ result, resolveEffectiveContext ⟨[], .claudeCode value, targetPath⟩ = .ok result ∧
      Projects value result) ↔
      (rawInput.candidates.map (·.path)).Nodup ∧
        conflictOpportunities value ≤ maximumConflicts ∧
        distinctAmbiguities (ambiguityRequests value) ≤ maximumAmbiguities := by
  have from_ := resolved accepted
  have freePaths : IdsDistinguish profileId (value.candidates.map (·.path)) :=
    fun first inFirst second inSecond =>
      free first (from_.paths.mem_iff.mp inFirst) second (from_.paths.mem_iff.mp inSecond)
  have increases := idRank_increases from_ freePaths
  have ordered : (value.candidates.map (·.path)).Nodup →
      (orderedDocuments value).sequence.Perm ((possible (documentsOf value)).map (·.id)) ∧
        (orderedDocuments value).ambiguities = [] := fun distinctPaths =>
    topologicalSequence_perm ((ids_nodup distinctPaths freePaths).sublist
      (filter_sublist.map _)) _ increases
  constructor
  · intro projected
    rcases projected with ⟨result, ran, shown⟩
    have paths := shown.documents.map Prod.fst
    rw [map_map, map_map] at paths
    have distinctPaths := paths.nodup_iff.mp shown.paths
    rcases ordered distinctPaths with ⟨_, acyclic⟩
    rcases (resolveClaude_eq_ok acyclic).mp ran with ⟨_, _, _, fits, last, requested, _⟩
    exact ⟨from_.paths.nodup_iff.mp distinctPaths, fits, (Kept.nil.addAll requested).distinct_le⟩
  · intro conditions
    rcases conditions with ⟨distinct, fits, bounded⟩
    have distinctPaths := from_.paths.nodup_iff.mpr distinct
    rcases ordered distinctPaths with ⟨sequence, acyclic⟩
    rcases Kept.nil.exists_addAll bounded with ⟨last, requested⟩
    refine ⟨_, (resolveClaude_eq_ok acyclic).mpr
      ⟨target, from_.few, distinctPaths, fits, last, requested, rfl⟩, ?_⟩
    constructor
    · have perm := (documentsOf_perm value).map fun document => (document.path, document.activation)
      rwa [map_map] at perm
    · exact (paths_documentsOf value).nodup_iff.mpr distinctPaths
    · exact ids_nodup distinctPaths freePaths
    · exact Arcs.acyclic_of_rank _ increases
    · exact sequence

/-! ## Two candidates at one path -/

/-- Readers for files that are plain text. -/
def plainReaders : ClaudeReaders where
  parse input := .ok {
    documentId := input.documentId
    format := input.format
    imports := []
    paths := .absent
    state := .complete
    text := none
    transformedBody := none }
  readTrace _ := .error "no trace"

def ruleFile (n : Nat) : ClaudeInstructionCandidateSnapshot where
  absolutePath := none
  bytes := [0x61]
  importGraph := none
  kind := .projectRule
  origin := .repository
  path := js ".claude/rules/" ++ [.ofNat (0x4e00 + n)] ++ js ".md"
  scopeRoot := repositoryRoot
  symlinkState := .absent

/-- A session that has just begun. -/
def launched : ClaudeRuntimeSnapshot where
  additionalDirectoryInstructions := .disabled
  clientVersion := none
  eventTrace := [.launch (js "event:1") repositoryRoot]
  exclusions := ⟨.complete, [], .sensitive⟩
  externalContext := .supplied
  mode := .normal
  settingSources := ⟨true, [.project]⟩

def withCandidates (candidates : List ClaudeInstructionCandidateSnapshot) :
    ResolveClaudeCodeProfileInput where
  candidates := candidates
  launchCwd := repositoryRoot
  repositoryRoot := repositoryRoot
  runtime := launched

def memoryFile : ClaudeInstructionCandidateSnapshot :=
  { ruleFile 0 with kind := .memoryShared, path := js "CLAUDE.md" }

/-- The session with a memory file and a rule has a resolution, and it is projected. -/
theorem resolveEffectiveContext_projects_memoryFile : ∃ value,
    resolveClaudeCodeProfile plainReaders
      (withCandidates [memoryFile, ruleFile 0]) = .ok value ∧
    ∃ result, resolveEffectiveContext ⟨[], .claudeCode value, js "a"⟩ = .ok result ∧
      Projects value result := by
  have accepted : ∃ value, resolveClaudeCodeProfile plainReaders
      (withCandidates [memoryFile, ruleFile 0]) = .ok value ∧
      conflictOpportunities value ≤ maximumConflicts ∧
      distinctAmbiguities (ambiguityRequests value) ≤ maximumAmbiguities :=
    ⟨_, rfl, by decide +kernel, by decide +kernel⟩
  rcases accepted with ⟨value, accepted, limits⟩
  have free : IdsDistinguish profileId
      ((withCandidates [memoryFile, ruleFile 0]).candidates.map (·.path)) := by
    unfold IdsDistinguish
    decide +kernel
  exact ⟨value, accepted, (resolveEffectiveContext_projects accepted (by decide +kernel) free).mpr
    ⟨by decide +kernel, limits⟩⟩

/-- `.claude/CLAUDE.md` as a memory file of its directory and as the alternate one of the root. -/
def twiceNamed : List ClaudeInstructionCandidateSnapshot :=
  [{ memoryFile with path := js ".claude/CLAUDE.md" },
    { memoryFile with path := js ".claude/CLAUDE.md", kind := .memoryAlternate }]

/-- The resolver accepts the file twice, and no target has a projection. -/
theorem twiceNamed_not_projected : ∃ value,
    resolveClaudeCodeProfile plainReaders (withCandidates twiceNamed) = .ok value ∧
      ∀ targetPath result, resolveEffectiveContext ⟨[], .claudeCode value, targetPath⟩ ≠ .ok result := by
  have accepted : ∃ value, resolveClaudeCodeProfile plainReaders
      (withCandidates twiceNamed) = .ok value := ⟨_, rfl⟩
  rcases accepted with ⟨value, accepted⟩
  refine ⟨value, accepted, fun targetPath result ran => ?_⟩
  rcases resolveEffectiveContext_eq_ok.mp ran with ⟨_, projected, projects, _, apart, _⟩
  rw [documents_of_projectClaude projects] at apart
  have distinct := (resolved accepted).paths.nodup_iff.mp
    ((paths_documentsOf value).nodup_iff.mp apart)
  exact absurd distinct (by decide)

end EffectiveContext

end AgentContextLint
