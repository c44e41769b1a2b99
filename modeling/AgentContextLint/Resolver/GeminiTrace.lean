import AgentContextLint.Resolver.GeminiCliProfile

/-!
# Runs of the Gemini CLI profile

A trusted session keeps the files that it loaded since the last reload (`current`) in its sets,
and in its list of documents those before it as well (`old`).

* `EventRun` and `Trace`: what an event does to the state, and a run of events.
-/

namespace AgentContextLint.GeminiCliProfile

open Utf16 Utf8 Metered Sorting List
open State (enter report reportIf)

/-! ## Loading -/

/-- The selected candidates that are loaded are new, and no other identity is selected. -/
structure LoadRun (state : State) (chosen loaded : List GeminiCliCandidateSnapshot)
    (next : State) : Prop where
  subset : loaded ⊆ chosen
  documents : next.documents.map (·.path) = state.documents.map (·.path) ++ loaded.map (·.path)
  identities : next.loadedIdentities = state.loadedIdentities ++ loaded.map identityKey
  distinct : (loaded.map identityKey).Nodup
  fresh : ∀ candidate ∈ loaded, identityKey candidate ∉ state.loadedIdentities
  paths : ∀ path, path ∈ next.loadedPaths ↔
    path ∈ state.loadedPaths ∨ path ∈ loaded.map (·.path)
  covered : ∀ candidate ∈ chosen, identityKey candidate ∈ next.loadedIdentities
  roots : next.activeRoots = state.activeRoots

theorem mem_insert {value other : Text} {set : List Text} :
    other ∈ insert value set ↔ other ∈ set ∨ other = value := by
  unfold insert
  split_ifs with known
  · constructor
    · exact Or.inl
    · intro either
      rcases either with old | rfl
      · exact old
      · exact known
  · rw [mem_append, mem_singleton]

section Reports

variable (state : State) (condition : Prop) [Decidable condition] (value : GeminiCliIssue)

@[simp] theorem reportIf_documents :
    (state.reportIf condition value).documents = state.documents := by
  unfold reportIf
  split_ifs <;> rfl

@[simp] theorem reportIf_loadedIdentities :
    (state.reportIf condition value).loadedIdentities = state.loadedIdentities := by
  unfold reportIf
  split_ifs <;> rfl

@[simp] theorem reportIf_loadedPaths :
    (state.reportIf condition value).loadedPaths = state.loadedPaths := by
  unfold reportIf
  split_ifs <;> rfl

@[simp] theorem reportIf_events : (state.reportIf condition value).events = state.events := by
  unfold reportIf
  split_ifs <;> rfl

@[simp] theorem reportIf_activeRoots :
    (state.reportIf condition value).activeRoots = state.activeRoots := by
  unfold reportIf
  split_ifs <;> rfl

@[simp] theorem reportIf_reads : (state.reportIf condition value).reads = state.reads := by
  unfold reportIf
  split_ifs <;> rfl

end Reports

variable {candidate : GeminiCliCandidateSnapshot} {state next : State} {context : Context}
  {candidates : List GeminiCliCandidateSnapshot} {old : List RelativePath}
  {event : GeminiCliEventSnapshot} {eventId : Text} {phase : GeminiPhase}

/-- What is on record of a candidate once its document is pushed. -/
theorem LoadRun.of_pushed (fresh : identityKey candidate ∉ state.loadedIdentities)
    (documents : next.documents.map (·.path) = state.documents.map (·.path) ++ [candidate.path])
    (identities : next.loadedIdentities = state.loadedIdentities ++ [identityKey candidate])
    (paths : next.loadedPaths = insert candidate.path state.loadedPaths)
    (roots : next.activeRoots = state.activeRoots) :
    LoadRun state [candidate] [candidate] next where
  subset := fun _ member => member
  documents := documents
  identities := identities
  distinct := nodup_singleton _
  fresh := fun other member => mem_singleton.mp member ▸ fresh
  paths := fun path => by rw [paths, mem_insert, map_singleton, mem_singleton]
  covered := fun other member => by
    rw [identities, mem_singleton.mp member]
    exact mem_append_right _ mem_cons_self
  roots := roots

/-- A candidate is loaded, or its identity was loaded before. -/
theorem loadCandidate_run {loaded : Bool}
    (ran : loadCandidate context phase eventId state candidate = .ok (next, loaded)) :
    LoadRun state [candidate] (if loaded then [candidate] else []) next ∧
      next.events = state.events := by
  unfold loadCandidate at ran
  dsimp only at ran
  split_ifs at ran with known unavailable
  · cases ran
    refine ⟨?_, rfl⟩
    constructor
    · exact nil_subset _
    · exact (append_nil _).symm
    · exact (append_nil _).symm
    · exact nodup_nil
    · exact forall_mem_nil _
    · exact fun path => (or_iff_left not_mem_nil).symm
    · exact fun other member => mem_singleton.mp member ▸ known
    · rfl
  · cases ran
    constructor
    · apply LoadRun.of_pushed known <;>
        simp [State.push, report, State.mark]
    · simp [State.push, report, State.mark]
  · rcases bind_eq_ok.mp ran with ⟨graph, _, ran⟩
    cases ran
    constructor
    · apply LoadRun.of_pushed known <;>
        simp [State.push, State.reportFile, State.read, State.mark]
    · simp [State.push, State.reportFile, State.read, State.mark]

theorem LoadRun.trans {state middle next : State}
    {chosen more loaded added : List GeminiCliCandidateSnapshot}
    (first : LoadRun state chosen loaded middle) (second : LoadRun middle more added next) :
    LoadRun state (chosen ++ more) (loaded ++ added) next where
  subset := append_subset.mpr
    ⟨fun _ member => mem_append_left _ (first.subset member),
      fun _ member => mem_append_right _ (second.subset member)⟩
  documents := by
    rw [second.documents, first.documents, map_append, append_assoc]
  identities := by
    rw [second.identities, first.identities, map_append, append_assoc]
  distinct := by
    rw [map_append]
    apply first.distinct.append second.distinct
    intro key inLoaded inAdded
    rcases mem_map.mp inAdded with ⟨candidate, member, rfl⟩
    apply second.fresh candidate member
    rw [first.identities]
    exact mem_append_right _ inLoaded
  fresh := by
    intro candidate member known
    rcases mem_append.mp member with inLoaded | inAdded
    · exact first.fresh candidate inLoaded known
    · apply second.fresh candidate inAdded
      rw [first.identities]
      exact mem_append_left _ known
  paths := fun path => by
    rw [second.paths, first.paths, map_append, mem_append, or_assoc]
  covered := by
    intro candidate member
    rcases mem_append.mp member with inChosen | inMore
    · rw [second.identities]
      exact mem_append_left _ (first.covered candidate inChosen)
    · exact second.covered candidate inMore
  roots := second.roots.trans first.roots

theorem LoadRun.refl (state : State) : LoadRun state [] [] state where
  subset := nil_subset _
  documents := (append_nil _).symm
  identities := (append_nil _).symm
  distinct := nodup_nil
  fresh := forall_mem_nil _
  paths := fun _ => (or_iff_left not_mem_nil).symm
  covered := forall_mem_nil _
  roots := rfl

/-- The paths that are added are those of the candidates that are loaded. -/
theorem loadCandidates_run
    {chosen : List GeminiCliCandidateSnapshot} {before added : List RelativePath}
    (ran : loadCandidates context phase eventId state before chosen = .ok (next, added)) :
    ∃ loaded, LoadRun state chosen loaded next ∧ next.events = state.events ∧
      added = before ++ loaded.map (·.path) := by
  induction chosen generalizing state before with
  | nil =>
    cases ran
    exact ⟨[], LoadRun.refl _, rfl, (append_nil _).symm⟩
  | cons candidate rest ih =>
    rcases bind_eq_ok.mp ran with ⟨⟨middle, isLoaded⟩, first, ran⟩
    rcases loadCandidate_run first with ⟨here, same⟩
    rcases ih ran with ⟨loaded, later, sameLater, rfl⟩
    refine ⟨(if isLoaded then [candidate] else []) ++ loaded, here.trans later,
      sameLater.trans same, ?_⟩
    cases isLoaded
    · rfl
    · rw [if_pos rfl, if_pos rfl, map_append, append_assoc]
      rfl

/-! ## Events -/

/-- What an event selects; nothing outside of the roots. -/
def Context.chosen (context : Context) (activeRoots : List RelativePath)
    (event : GeminiCliEventSnapshot) : List GeminiCliCandidateSnapshot :=
  (context.selection activeRoots event).getD []

/-- What an event of a trusted session does. -/
structure EventRun (context : Context) (state : State) (event : GeminiCliEventSnapshot)
    (loaded : List GeminiCliCandidateSnapshot) (decision : GeminiCliEventDecision)
    (next : State) : Prop where
  decides : next.events = state.events ++ [decision]
  added : decision.added = loaded.map (·.path)
  kind : decision.kind = event.kind
  loadedAfter : decision.loadedAfterEvent = sortBy compareUnits next.loadedPaths
  loads : LoadRun (state.enter event)
    (context.chosen (Context.rootsAfter state.activeRoots event) event) loaded next

/-- A decision changes the list of decisions only. -/
theorem LoadRun.decide {chosen loaded : List GeminiCliCandidateSnapshot}
    (run : LoadRun state chosen loaded next) (event : GeminiCliEventSnapshot)
    (added : List RelativePath) (decided : GeminiEventState) :
    LoadRun state chosen loaded (next.decide event added decided) :=
  { run with }

@[simp] theorem enter_activeRoots (state : State) (event : GeminiCliEventSnapshot) :
    (state.enter event).activeRoots = Context.rootsAfter state.activeRoots event := by
  unfold enter
  dsimp only
  split_ifs <;> rfl

@[simp] theorem enter_documents (state : State) (event : GeminiCliEventSnapshot) :
    (state.enter event).documents = state.documents := by
  unfold enter
  dsimp only
  split_ifs <;> rfl

@[simp] theorem enter_events (state : State) (event : GeminiCliEventSnapshot) :
    (state.enter event).events = state.events := by
  unfold enter
  dsimp only
  split_ifs <;> rfl

theorem enter_loadedIdentities (state : State) (event : GeminiCliEventSnapshot) :
    (state.enter event).loadedIdentities =
      if event.kind = .memoryReload then [] else state.loadedIdentities := by
  unfold enter
  dsimp only
  split_ifs <;> rfl

theorem enter_loadedPaths (state : State) (event : GeminiCliEventSnapshot) :
    (state.enter event).loadedPaths =
      if event.kind = .memoryReload then [] else state.loadedPaths := by
  unfold enter
  dsimp only
  split_ifs <;> rfl

theorem trustedEvent_run (ran : trustedEvent context state event = .ok next) :
    ∃ loaded decision, EventRun context state event loaded decision next := by
  unfold trustedEvent at ran
  dsimp only at ran
  rw [enter_activeRoots] at ran
  split at ran
  · next none =>
      cases ran
      refine ⟨[], _, ⟨congrArg (· ++ [_]) (enter_events state event), rfl, rfl, rfl, ?_⟩⟩
      unfold Context.chosen
      rw [none]
      exact { LoadRun.refl (state.enter event) with }
  · next chosen some =>
      rcases bind_eq_ok.mp ran with ⟨⟨middle, added⟩, loads, ran⟩
      cases ran
      rcases loadCandidates_run loads with ⟨loaded, run, same, rfl⟩
      refine ⟨loaded, _, ⟨congrArg (· ++ [_]) (same.trans (enter_events state event)), rfl, rfl, rfl,
        ?_⟩⟩
      unfold Context.chosen
      rw [some]
      exact run.decide _ _ _

/-- A run of events, with the decisions on them. -/
inductive Trace (context : Context) : State → List GeminiCliEventSnapshot →
    List GeminiCliEventDecision → State → Prop
  | nil {state : State} : Trace context state [] [] state
  | cons {state next final : State} {event : GeminiCliEventSnapshot}
    {events : List GeminiCliEventSnapshot} {loaded : List GeminiCliCandidateSnapshot}
    {decision : GeminiCliEventDecision} {decisions : List GeminiCliEventDecision} :
    EventRun context state event loaded decision next →
    Trace context next events decisions final →
    Trace context state (event :: events) (decision :: decisions) final

theorem trace_of_trusted (trusted : context.input.trustState = .trusted)
    {events : List GeminiCliEventSnapshot} {state final : State}
    (ran : events.foldlM (applyEvent context) state = .ok final) :
    ∃ decisions, final.events = state.events ++ decisions ∧
      Trace context state events decisions final := by
  induction events generalizing state with
  | nil =>
    cases ran
    exact ⟨[], (append_nil _).symm, Trace.nil⟩
  | cons event rest ih =>
    rw [foldlM_cons] at ran
    rcases bind_eq_ok.mp ran with ⟨next, first, later⟩
    unfold applyEvent at first
    rw [if_neg (not_not.mpr trusted)] at first
    rcases trustedEvent_run first with ⟨loaded, decision, run⟩
    rcases ih later with ⟨decisions, record, trace⟩
    refine ⟨decision :: decisions, ?_, Trace.cons run trace⟩
    rw [record, run.decides, append_assoc]
    rfl

/-! ## The invariant of a run -/

/-- The files in the sets are the current ones; the list of documents has the old ones too. -/
structure Loaded (candidates : List GeminiCliCandidateSnapshot)
    (old : List RelativePath) (current : List GeminiCliCandidateSnapshot)
    (state : State) : Prop where
  documents : state.documents.map (·.path) = old ++ current.map (·.path)
  identities : state.loadedIdentities = current.map identityKey
  distinct : (current.map identityKey).Nodup
  paths : ∀ path, path ∈ state.loadedPaths ↔ path ∈ current.map (·.path)
  known : ∀ candidate ∈ current, candidateAt candidates candidate.path = some candidate

/-- The old and the current files after a load. -/
theorem Loaded.load {current chosen loaded : List GeminiCliCandidateSnapshot} (here : Loaded candidates old current state)
    (known : ∀ candidate ∈ chosen, candidateAt candidates candidate.path = some candidate)
    (loads : LoadRun state chosen loaded next) :
    Loaded candidates old (current ++ loaded) next where
  documents := by
    rw [loads.documents, here.documents, map_append, append_assoc]
  identities := by
    rw [loads.identities, here.identities, map_append]
  distinct := by
    rw [map_append]
    apply here.distinct.append loads.distinct
    intro key inCurrent inLoaded
    rcases mem_map.mp inLoaded with ⟨candidate, member, rfl⟩
    apply loads.fresh candidate member
    rw [here.identities]
    exact inCurrent
  paths := fun path => by
    rw [loads.paths, here.paths, map_append, mem_append]
  known := by
    intro candidate member
    rcases mem_append.mp member with inCurrent | inLoaded
    · exact here.known candidate inCurrent
    · exact known candidate (loads.subset inLoaded)

/-- A reload makes the current files old ones. -/
theorem Loaded.enter {current : List GeminiCliCandidateSnapshot}
    {state : State} (here : Loaded candidates old current state) (event : GeminiCliEventSnapshot) :
    Loaded candidates
      (if event.kind = .memoryReload then old ++ current.map (·.path) else old)
      (if event.kind = .memoryReload then [] else current) (state.enter event) := by
  split_ifs with reload
  · constructor
    · rw [enter_documents, here.documents]
      exact (append_nil _).symm
    · rw [enter_loadedIdentities, if_pos reload]
      rfl
    · exact nodup_nil
    · intro path
      rw [enter_loadedPaths, if_pos reload]
      rfl
    · exact forall_mem_nil _
  · constructor
    · rw [enter_documents, here.documents]
    · rw [enter_loadedIdentities, if_neg reload, here.identities]
    · exact here.distinct
    · intro path
      rw [enter_loadedPaths, if_neg reload, here.paths]
    · exact here.known

/-- What stands in the inventory at its own path. -/
theorem candidateAt_of_some {path : RelativePath}
    (found : candidateAt candidates path = some candidate) :
    candidateAt candidates candidate.path = some candidate := by
  have same : candidate.path = path := by simpa using find?_some found
  rwa [same]

theorem firstOfEach_subset (seen : List Text) (list : List GeminiCliCandidateSnapshot) :
    firstOfEach seen list ⊆ list := by
  induction list generalizing seen with
  | nil => exact nil_subset _
  | cons candidate rest ih =>
    unfold firstOfEach
    split_ifs
    · exact fun other member => mem_cons_of_mem _ (ih seen member)
    · exact cons_subset_cons candidate (ih _)

theorem known_candidatesForDirectories {directories : List RelativePath}
    (member : candidate ∈ context.candidatesForDirectories directories) :
    candidateAt context.input.candidates candidate.path = some candidate := by
  have found := firstOfEach_subset _ _ ((mem_sortBy _).mp member)
  rcases mem_flatMap.mp found with ⟨directory, _, found⟩
  rcases mem_filterMap.mp found with ⟨name, _, found⟩
  exact candidateAt_of_some (Option.filter_eq_some_iff.mp found).1

theorem known_chosen {activeRoots : List RelativePath} :
    ∀ candidate ∈ context.chosen activeRoots event,
      candidateAt context.input.candidates candidate.path = some candidate := by
  intro candidate member
  unfold Context.chosen Context.selection at member
  split at member
  · exact known_candidatesForDirectories member
  · exact known_candidatesForDirectories member
  · rw [Option.getD_some] at member
    split_ifs at member
    · exact known_candidatesForDirectories member
    · cases member
  · next path _ _ _ _ =>
      cases found : context.pathCandidates activeRoots path with
      | none =>
        rw [found] at member
        cases member
      | some chosen =>
        rcases Option.map_eq_some_iff.mp found with ⟨root, _, rfl⟩
        rw [found] at member
        exact known_candidatesForDirectories member
  · cases member

/-! ## Reloads -/

/-- No reload comes behind an event that selects a file. -/
def Quiet (context : Context) : List RelativePath → List GeminiCliEventSnapshot → Prop
  | _, [] => True
  | activeRoots, event :: rest =>
    (context.chosen (Context.rootsAfter activeRoots event) event = [] ∨
      ∀ later ∈ rest, later.kind ≠ .memoryReload) ∧
    Quiet context (Context.rootsAfter activeRoots event) rest

/-- An event loads something unless it selects nothing. -/
theorem loaded_eq_nil_iff {chosen loaded : List GeminiCliCandidateSnapshot}
    (loads : LoadRun state chosen loaded next) (empty : state.loadedIdentities = []) :
    loaded = [] ↔ chosen = [] := by
  constructor
  · intro none
    cases chosen with
    | nil => rfl
    | cons candidate rest =>
      have covered := loads.covered candidate mem_cons_self
      rw [loads.identities, none, empty] at covered
      cases covered
  · intro none
    exact subset_nil.mp (none ▸ loads.subset)

variable {context : Context} {events : List GeminiCliEventSnapshot}
  {decisions : List GeminiCliEventDecision} {state final : State}
  {current : List GeminiCliCandidateSnapshot} {old : List RelativePath}

/-- A run keeps the invariant, and comes to old files only by a reload behind a load. -/
theorem Trace.loaded (trace : Trace context state events decisions final)
    (here : Loaded context.input.candidates old current state) :
    ∃ finalOld finalCurrent, Loaded context.input.candidates finalOld finalCurrent final ∧
      (finalOld = [] ↔ old = [] ∧ (current = [] ∨ ∀ event ∈ events, event.kind ≠ .memoryReload) ∧
        Quiet context state.activeRoots events) := by
  induction trace generalizing old current with
  | nil => exact ⟨old, current, here, by simp [Quiet]⟩
  | @cons state next final event rest loaded decision decisions run _ ih =>
    have after := (here.enter event).load known_chosen run.loads
    rcases ih after with ⟨finalOld, finalCurrent, whole, quiet⟩
    refine ⟨finalOld, finalCurrent, whole, quiet.trans ?_⟩
    have roots : next.activeRoots = Context.rootsAfter state.activeRoots event := by
      rw [run.loads.roots, enter_activeRoots]
    rw [roots, Quiet, forall_mem_cons]
    by_cases reload : event.kind = .memoryReload
    · have fresh : loaded = [] ↔
          context.chosen (Context.rootsAfter state.activeRoots event) event = [] :=
        loaded_eq_nil_iff run.loads (by rw [enter_loadedIdentities, if_pos reload])
      simp only [reload, ↓reduceIte, append_eq_nil_iff, map_eq_nil_iff,
        nil_append, ne_eq, not_true_eq_false, false_and, or_false, fresh]
      tauto
    · simp only [reload, ↓reduceIte, append_eq_nil_iff, ne_eq, not_false_eq_true, true_and]
      have fresh : current = [] → (loaded = [] ↔
          context.chosen (Context.rootsAfter state.activeRoots event) event = []) := by
        intro none
        apply loaded_eq_nil_iff run.loads
        rw [enter_loadedIdentities, if_neg reload, here.identities, none]
        rfl
      tauto

/-! ## Loads and decisions -/

/-- The identity of the file at a path of the inventory. -/
def identityAt (candidates : List GeminiCliCandidateSnapshot) (path : RelativePath) :
    Option Text := (candidateAt candidates path).map identityKey

/-- Between two launches or reloads no identity is loaded twice. -/
def LoadsOnce (candidates : List GeminiCliCandidateSnapshot)
    (decisions : List GeminiCliEventDecision) : Prop :=
  ∀ before segment after, decisions = before ++ segment ++ after →
    (∀ decision ∈ segment.tail, decision.kind ≠ .launch ∧ decision.kind ≠ .memoryReload) →
    ((segment.flatMap (·.added)).map (identityAt candidates)).Nodup

theorem Trace.append_inv {first second : List GeminiCliEventDecision}
    (trace : Trace context state events (first ++ second) final) :
    ∃ earlier later middle, Trace context state earlier first middle ∧
      Trace context middle later second final := by
  induction first generalizing state events with
  | nil => exact ⟨[], events, state, Trace.nil, trace⟩
  | cons decision rest ih =>
    cases trace with
    | cons run trace =>
      rcases ih trace with ⟨earlier, later, middle, front, back⟩
      exact ⟨_ :: earlier, later, middle, Trace.cons run front, back⟩

theorem EventRun.identities {state next : State} {event : GeminiCliEventSnapshot}
    {loaded : List GeminiCliCandidateSnapshot} {decision : GeminiCliEventDecision}
    (run : EventRun context state event loaded decision next) :
    decision.added.map (identityAt context.input.candidates) = loaded.map (some ∘ identityKey) := by
  rw [run.added, map_map]
  apply map_congr_left
  intro candidate member
  change (candidateAt context.input.candidates candidate.path).map identityKey = _
  rw [known_chosen candidate (run.loads.subset member)]
  rfl

section

variable (trace : Trace context state events decisions final)

include trace

/-- Without a reload, what is loaded is new. -/
theorem Trace.nodup_identities (here : Loaded context.input.candidates old current state)
    (quiet : ∀ decision ∈ decisions, decision.kind ≠ .memoryReload) :
    (current.map (some ∘ identityKey) ++ (decisions.flatMap (·.added)).map
      (identityAt context.input.candidates)).Nodup := by
  induction trace generalizing old current with
  | nil =>
    rw [flatMap_nil, map_nil, append_nil, ← map_map]
    exact here.distinct.map (Option.some_injective _)
  | @cons state next final event rest loaded decision decisions run _ ih =>
    rcases forall_mem_cons.mp quiet with ⟨first, later⟩
    rw [run.kind] at first
    have entered := here.enter event
    rw [if_neg first, if_neg first] at entered
    have whole := ih (entered.load known_chosen run.loads) later
    rw [flatMap_cons, map_append, run.identities, ← append_assoc, ← map_append]
    exact whole

theorem Trace.loadsOnce (here : Loaded context.input.candidates old current state) :
    LoadsOnce context.input.candidates decisions := by
  intro before segment after split within
  rw [split] at trace
  rcases trace.append_inv with ⟨_, _, _, front, _⟩
  rcases front.append_inv with ⟨_, _, middle, front, inside⟩
  rcases front.loaded here with ⟨_, _, start, _⟩
  cases inside with
  | nil => exact nodup_nil
  | cons run rest =>
    have entered := (start.enter _).load known_chosen run.loads
    have whole := rest.nodup_identities entered fun decision member => (within decision member).2
    rw [flatMap_cons, map_append, run.identities]
    rw [map_append, append_assoc] at whole
    exact (nodup_append.mp whole).2.1

/-- A reload keeps nothing that it does not load. -/
theorem Trace.reloads : ∀ decision ∈ decisions, decision.kind = .memoryReload →
      decision.loadedAfterEvent ⊆ decision.added := by
  induction trace with
  | nil => exact forall_mem_nil _
  | @cons state next final event rest loaded decision decisions run _ ih =>
    apply forall_mem_cons.mpr ⟨_, ih⟩
    intro reload path member
    rw [run.kind] at reload
    rw [run.loadedAfter, mem_sortBy, run.loads.paths, enter_loadedPaths, if_pos reload] at member
    rw [run.added]
    exact member.resolve_left not_mem_nil

theorem Trace.last (some : events ≠ []) :
    ∃ last ∈ decisions.getLast?, last.loadedAfterEvent = sortBy compareUnits final.loadedPaths := by
  induction trace with
  | nil => exact absurd rfl some
  | @cons state next final event rest loaded decision decisions run trace ih =>
    cases trace with
    | nil => exact ⟨decision, rfl, run.loadedAfter⟩
    | cons second later =>
      rcases ih (cons_ne_nil _ _) with ⟨last, isLast, same⟩
      exact ⟨last, by rw [getLast?_cons_cons]; exact isLast, same⟩

end

/-! ## Sessions without trust -/

/-- Nothing is loaded and nothing is read. -/
structure Silent (state : State) : Prop where
  documents : state.documents = []
  loadedPaths : state.loadedPaths = []
  reads : state.reads = []
  events : ∀ decision ∈ state.events, decision.added = [] ∧ decision.loadedAfterEvent = []

theorem Silent.untrustedEvent {state : State} (silent : Silent state)
    (event : GeminiCliEventSnapshot) : Silent (untrustedEvent state event) where
  documents := (reportIf_documents _ _ _).trans silent.documents
  loadedPaths := (reportIf_loadedPaths _ _ _).trans silent.loadedPaths
  reads := (reportIf_reads _ _ _).trans silent.reads
  events := by
    intro decision member
    rcases mem_append.mp member with earlier | here
    · rw [reportIf_events] at earlier
      exact silent.events decision earlier
    · rw [mem_singleton.mp here, reportIf_loadedPaths, silent.loadedPaths]
      exact ⟨rfl, rfl⟩

theorem silent_of_untrusted (untrusted : context.input.trustState ≠ .trusted) (silent : Silent state)
    (ran : events.foldlM (applyEvent context) state = .ok final) :
    Silent final ∧ final.events.length = state.events.length + events.length := by
  induction events generalizing state with
  | nil =>
    cases ran
    exact ⟨silent, rfl⟩
  | cons event rest ih =>
    rw [foldlM_cons] at ran
    rcases bind_eq_ok.mp ran with ⟨next, first, later⟩
    unfold applyEvent at first
    rw [if_pos untrusted] at first
    cases first
    rcases ih (silent.untrustedEvent event) later with ⟨whole, count⟩
    refine ⟨whole, ?_⟩
    have one : (untrustedEvent state event).events.length = state.events.length + 1 := by
      unfold untrustedEvent State.decide
      rw [length_append, reportIf_events]
      rfl
    rw [count, one, length_cons]
    omega

end AgentContextLint.GeminiCliProfile
