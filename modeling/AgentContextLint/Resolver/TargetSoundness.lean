import AgentContextLint.Resolver.TargetCoverage

/-!
# Soundness of target sampling

What a sample says of its input, read off the input itself: which tracked paths are sources, and
which groups of them the criteria of a result have to cover. `sampleTargets_sound_iff` is the
condition under which an accepted input is sampled soundly.
-/

namespace AgentContextLint.TargetSampler

open Utf16 Sorting Metered List
open RepositoryPath (isRepositoryRelativePath repositoryRoot pathSegments)
open JsValue (get text?)

/-! ## What an input says -/

def itemsAt (value : JsValue) (key : String) : List JsValue :=
  match value with
  | .object fields =>
    match get fields (js key) with
    | .array items => items
    | _ => []
  | _ => []

def textAt (value : JsValue) (key : String) : Option Text :=
  match value with
  | .object fields => (get fields (js key)).text?
  | _ => none

def trackedPaths (value : JsValue) : List RelativePath :=
  (itemsAt value "paths").filterMap text?

def criticalPathsOf (value : JsValue) : List RelativePath :=
  (itemsAt value "criticalPaths").filterMap text?

def workspaceRootsOf (value : JsValue) : List RelativePath :=
  (itemsAt value "workspaceBoundaries").filterMap (textAt · "root")

def factOf (value : JsValue) : Option TargetActivationFact :=
  (textAt value "ruleId").bind fun ruleId =>
    ((textAt value "state").bind ActivationState.ofText).map fun state => { ruleId, state }

def statesAt (value : JsValue) (path : RelativePath) : List TargetActivationFact :=
  match (itemsAt value "activationObservations").find? (textAt · "path" = some path) with
  | some observation => (itemsAt observation "states").filterMap factOf
  | none => []

/-- The state vector of a path. -/
def sortedStatesAt (value : JsValue) (path : RelativePath) : List TargetActivationFact :=
  sortFacts (statesAt value path)

def partitionAt (value : JsValue) (path : RelativePath) : Text :=
  partitionId (sortedStatesAt value path)

section Sources

variable (toLowerCase : Text → Text)

/-- The tracked paths that the sampler takes for sources. -/
def sourcePathsOf (value : JsValue) : List RelativePath :=
  (trackedPaths value).filter fun path =>
    (classifyNormalizedTargetSourcePath toLowerCase path).isSome

/-- What the partition ids of the sources are digests of. -/
def partitionInputs (value : JsValue) : List (List UInt8) :=
  (sourcePathsOf toLowerCase value).map fun path => partitionInput (sortedStatesAt value path)

/-- A listed name, or one whose lower-cased last extension is listed. -/
def IsSourcePath (path : RelativePath) : Prop :=
  rawName path ∈ languageBasenames.map (·.1) ∨
    ∃ extension, extensionOf (toLowerCase (rawName path)) = some extension ∧
      extension ∈ languageExtensions.map (·.1)

def belowRoot (root path : RelativePath) : Bool :=
  root == repositoryRoot || (root ++ js "/").isPrefixOf path

/-- A path of the language, all of whose segments but the last are those of the other path. -/
def inLanguageDirectory (language : TargetSourceLanguage) (path other : RelativePath) : Bool :=
  classifyNormalizedTargetSourcePath toLowerCase other == some (.listed language) &&
    (pathSegments other).dropLast == (pathSegments path).dropLast

/-- Exactly one criterion asks for the members of a group: it counts them, is unavailable exactly
if there are none, and otherwise has selected one of them. -/
def Covers (result : TargetSamplingResult) (kind : TargetCoverageKind) (id : Text)
    (members : List RelativePath) : Prop :=
  ∃ criterion, (result.coverage.filter fun other => other.kind = kind ∧ other.id = id) = [criterion] ∧
    criterion.candidateCount = members.length ∧
    (criterion.status = .unavailable ↔ criterion.candidateCount = 0) ∧
    (members ≠ [] → ∃ path ∈ members, criterion.selectedPath = some path ∧
      ∃ target ∈ result.selected, target.path = path ∧ reasonOf criterion ∈ target.reasons)

/-- Every group of an input is covered. A partition has the sources with the same states, where no two
state vectors have one digest. -/
structure CoversAll (value : JsValue) (result : TargetSamplingResult) : Prop where
  critical : ∀ path ∈ criticalPathsOf value,
    Covers result .criticalPath path ((trackedPaths value).filter (· = path))
  workspace : ∀ root ∈ workspaceRootsOf value,
    Covers result .workspaceRoot root ((sourcePathsOf toLowerCase value).filter (belowRoot root))
  partition : Sha256.CollisionFree (partitionInputs toLowerCase value) →
    ∀ path ∈ sourcePathsOf toLowerCase value,
      Covers result .scopePartition (partitionAt value path)
        ((sourcePathsOf toLowerCase value).filter
          (sortedStatesAt value · = sortedStatesAt value path))
  languageDirectory : ∀ path ∈ sourcePathsOf toLowerCase value, ∀ language,
    classifyNormalizedTargetSourcePath toLowerCase path = some (.listed language) →
      Covers result .languageDirectory (language.text ++ js ":" ++ directoryOf path)
        ((sourcePathsOf toLowerCase value).filter (inLanguageDirectory toLowerCase language path))

end Sources

variable {fields : List (Text × JsValue)} {key : String}

/-- A text that starts with U+10FFFF or with a unit behind the surrogates. -/
def sortsLast : Text → Bool
  | [] => false
  | [u] => decide (0xe000 ≤ u.toNat)
  | u :: v :: _ => decide (0xe000 ≤ u.toNat) || (u == 0xdbff && v == 0xdfff)

/-! ## Reading it -/

theorem textAt_eq {text : Text} (isText : get fields (js key) = .string text) :
    textAt (.object fields) key = some text := by
  rw [textAt, isText]
  rfl

theorem itemsAt_eq {items : List JsValue}
    (isArray : get fields (js key) = .array items) : itemsAt (.object fields) key = items := by
  rw [itemsAt, isArray]

theorem filterMap_of_forall₂ {α β : Type} {reads : α → β → Prop} {read : α → Option β}
    (each : ∀ item out, reads item out → read item = some out) {items : List α} {outs : List β}
    (all : Forall₂ reads items outs) : items.filterMap read = outs := by
  induction all with
  | nil => rfl
  | cons own _ ih => rw [filterMap_cons, each _ _ own, ih]

section Reading

variable {toLowerCase : Text → Text} {clock : TargetSamplerClock}
  {limits : TargetSamplerLimits} {fields : List (Text × JsValue)} {input : SampleTargetsInput}

variable {observation : TargetActivationObservation} {path : RelativePath}

theorem text?_of_readsPath (value : JsValue) (path : RelativePath)
    (reads : ReadsPath value path) : value.text? = some path := by
  rw [reads.1]
  rfl

section

variable (reads : InputRead toLowerCase clock limits fields input)

include reads

theorem trackedPaths_eq : trackedPaths (.object fields) = input.paths := by
  obtain ⟨raw, dense, all⟩ := reads.paths.dense
  rw [trackedPaths, itemsAt_eq dense.eq]
  exact filterMap_of_forall₂ text?_of_readsPath all

theorem criticalPathsOf_eq : criticalPathsOf (.object fields) = input.criticalPaths := by
  obtain ⟨raw, dense, all⟩ := reads.critical.dense
  rw [criticalPathsOf, itemsAt_eq dense.eq]
  exact filterMap_of_forall₂ text?_of_readsPath all

theorem workspaceRootsOf_eq : workspaceRootsOf (.object fields) = input.workspaceRoots := by
  obtain ⟨raw, dense, all⟩ := reads.boundaries.dense
  rw [workspaceRootsOf, itemsAt_eq dense.eq]
  refine filterMap_of_forall₂ (fun value root reads => ?_) all
  obtain ⟨item, shape, -, -, -, -, isRoot⟩ := reads.shape
  rw [shape.eq]
  exact textAt_eq isRoot

end

theorem factOf_eq (value : JsValue) (fact : TargetActivationFact) (reads : ReadsFact value fact) :
    factOf value = some fact := by
  obtain ⟨item, shape, isRule, isState⟩ := reads.shape
  have stateText : textAt (.object item) "state" = (get item (js "state")).text? := rfl
  rw [shape.eq, factOf, textAt_eq isRule, stateText, Option.bind_some, isState]
  rfl

theorem find?_observation {raw : List JsValue} {observed : List TargetActivationObservation}
    (all : Forall₂ (ReadsObservation limits) raw observed)
    (distinct : (observed.map (·.path)).Nodup) (member : observation ∈ observed) :
    ∃ item, raw.find? (textAt · "path" = some observation.path) = some item ∧
      ReadsObservation limits item observation := by
  induction all with
  | nil => cases member
  | @cons item own items observed reads all ih =>
    obtain ⟨_, _, _, shape, isPath, -⟩ := reads.shape
    have named : textAt item "path" = some own.path := by
      rw [shape.eq]
      exact textAt_eq isPath.1
    rw [map_cons, nodup_cons] at distinct
    obtain rfl | later := mem_cons.mp member
    · refine ⟨item, ?_, reads⟩
      rw [find?_cons, decide_eq_true named]
    · have apart : ¬ textAt item "path" = some observation.path := by
        rw [named]
        intro same
        exact distinct.1 (Option.some.inj same ▸ mem_map_of_mem later)
      rw [find?_cons, decide_eq_false apart]
      exact ih distinct.2 later

theorem statesAt_eq (reads : InputRead toLowerCase clock limits fields input) (member : observation ∈ input.activationObservations) :
    sortFacts (statesAt (.object fields) observation.path) = observation.states := by
  obtain ⟨raw, dense, all⟩ := reads.observations.dense
  obtain ⟨item, found, ⟨⟨itemFields, states, facts, shape, -, isDense, each, sorted⟩, -⟩⟩ :=
    find?_observation all reads.observations.consistent.distinct member
  rw [statesAt, itemsAt_eq dense.eq, found]
  simp only
  rw [shape.eq, itemsAt_eq isDense.eq, filterMap_of_forall₂ factOf_eq each, sorted]

theorem sourcePaths_eq (toLowerCase : Text → Text) (paths : List RelativePath) :
    sourcePaths toLowerCase paths = (sortBy compareUnits paths).filter fun path =>
      (classifyNormalizedTargetSourcePath toLowerCase path).isSome := by
  unfold sourcePaths sourcesOf
  induction sortBy compareUnits paths with
  | nil => rfl
  | cons path paths ih =>
    rw [filterMap_cons, filter_cons]
    cases classifyNormalizedTargetSourcePath toLowerCase path with
    | none => exact ih
    | some language => exact congrArg (path :: ·) ih

section

variable (reads : InputRead toLowerCase clock limits fields input)

include reads

theorem sourcePaths_perm :
    (sourcePaths toLowerCase input.paths).Perm (sourcePathsOf toLowerCase (.object fields)) := by
  rw [sourcePaths_eq, sourcePathsOf, trackedPaths_eq reads]
  exact (sortBy_perm _ _).filter _

theorem exists_observation (source : path ∈ sourcePaths toLowerCase input.paths) :
    ∃ observation ∈ input.activationObservations, observation.path = path := by
  have consistent := reads.observations.consistent
  have subset : input.activationObservations.map (·.path) ⊆ sourcePaths toLowerCase input.paths := by
    intro path member
    obtain ⟨observation, inList, rfl⟩ := mem_map.mp member
    exact consistent.sources observation inList
  have perm : (input.activationObservations.map (·.path)).Perm
      (sourcePaths toLowerCase input.paths) := by
    refine (subperm_of_subset consistent.distinct subset).perm_of_length_le ?_
    rw [length_map, reads.observations.complete]
  exact mem_map.mp (perm.mem_iff.mpr source)

theorem kept_states (source : path ∈ sourcePaths toLowerCase input.paths) :
    (input.normalized.observed.observations.get? path).getD [] =
      sortFacts (statesAt (.object fields) path) := by
  obtain ⟨observation, member, rfl⟩ := exists_observation reads source
  have entries := (foldl_observe reads.observations.consistent.distinct).1
  have found : input.normalized.observed.observations.get? observation.path =
      some observation.states := by
    rw [OrderedMap.get?_eq_some]
    exact entries ▸ mem_map.mpr ⟨observation, member, rfl⟩
  rw [found, Option.getD_some, statesAt_eq reads member]

theorem candidates_eq : candidatesFrom input.normalized.observed.observations .empty
        (sourcesOf toLowerCase input.normalized.paths) =
      (sourcesOf toLowerCase input.normalized.paths).map
        (candidateOf (sortedStatesAt (.object fields))) := by
  have inPaths : ∀ source ∈ sourcesOf toLowerCase input.normalized.paths,
      source.path ∈ sourcePaths toLowerCase input.paths := fun source member =>
    mem_map.mpr ⟨source, member, rfl⟩
  have agree := reads.observations.consistent.agree
  have rules : ∃ rules, ∀ source ∈ sourcesOf toLowerCase input.normalized.paths,
      ruleIds ((input.normalized.observed.observations.get? source.path).getD []) = rules := by
    cases all : input.activationObservations with
    | nil =>
      refine ⟨[], fun source member => ?_⟩
      obtain ⟨observation, inList, -⟩ := exists_observation reads (inPaths source member)
      rw [all] at inList
      cases inList
    | cons first rest =>
      refine ⟨ruleIds first.states, fun source member => ?_⟩
      obtain ⟨observation, inList, same⟩ := exists_observation reads (inPaths source member)
      rw [kept_states reads (inPaths source member), ← same, statesAt_eq reads inList]
      exact agree observation inList first (all ▸ mem_cons_self)
  obtain ⟨rules, same⟩ := rules
  have known : ∀ states, ruleIds states = rules → ∀ id,
      (OrderedMap.empty : OrderedMap Text Text).get? (partitionSignature states) = some id →
        id = partitionId states := fun _ _ _ found => nomatch found
  rw [candidatesFrom_eq .empty same known, map_inj_left]
  intro source member
  have states := kept_states reads (inPaths source member)
  exact congrArg (fun states => Candidate.mk source (partitionId states)) states

end

end Reading

variable {toLowerCase : Text → Text} {path : RelativePath}

variable {result : TargetSamplingResult}

/-! ## Tables -/

def allLanguages : List TargetSourceLanguage :=
  [.c, .cpp, .csharp, .css, .dart, .elixir, .erlang, .fsharp, .go, .graphql, .groovy, .haskell, .html,
    .java, .javascript, .kotlin, .lua, .make, .objectiveC, .perl, .php, .powershell, .protobuf,
    .python, .r, .ruby, .rust, .scala, .shell, .solidity, .sql, .svelte, .swift, .terraform,
    .typescript, .vue, .zig]

theorem mem_allLanguages (language : TargetSourceLanguage) : language ∈ allLanguages := by
  cases language <;> decide

theorem language_text_injective {language language' : TargetSourceLanguage}
    (same : language.text = language'.text) : language = language' := by
  have distinct : (allLanguages.map (·.text)).Nodup := by decide
  exact inj_on_of_nodup_map distinct (mem_allLanguages language) (mem_allLanguages language') same

theorem colon_notMem_language (language : TargetSourceLanguage) :
    (0x3a : CodeUnit) ∉ language.text := by
  have none : ∀ language ∈ allLanguages, (0x3a : CodeUnit) ∉ language.text := by decide
  exact none language (mem_allLanguages language)

theorem inherited_notListed : ∀ name ∈ inheritedNames, name ∉ languageBasenames.map (·.1) := by decide

theorem inherited_noDot : ∀ name ∈ inheritedNames, (0x2e : CodeUnit) ∉ name := by decide

theorem lookup_isSome {α β : Type} [BEq α] [LawfulBEq α] {table : List (α × β)} {key : α} :
    (table.lookup key).isSome = true ↔ key ∈ table.map (·.1) := by
  simp only [lookup_isSome_iff, mem_map, beq_iff_eq, @eq_comm _ key]

/-- `toLowerCase` makes no dots. -/
def KeepsDots (toLowerCase : Text → Text) : Prop :=
  ∀ name, (0x2e : CodeUnit) ∈ toLowerCase name → (0x2e : CodeUnit) ∈ name

/-- A path is taken for a source if it is one, or if its name is inherited. -/
theorem classify_isSome : (classifyNormalizedTargetSourcePath toLowerCase path).isSome = true ↔
      IsSourcePath toLowerCase path ∨ rawName path ∈ inheritedNames := by
  unfold classifyNormalizedTargetSourcePath basenameLanguage IsSourcePath
  rw [← lookup_isSome]
  cases listed : languageBasenames.lookup (rawName path) with
  | some language => exact iff_of_true rfl (.inl (.inl rfl))
  | none =>
    by_cases inherited : rawName path ∈ inheritedNames
    · simp [inherited]
    · have lookup : ∀ extension, extension ∈ languageExtensions.map (·.1) ↔
          (languageExtensions.lookup extension).isSome = true := fun _ => lookup_isSome.symm
      simp only [lookup, extensionLanguage, Option.isSome_none,
        Bool.false_eq_true, false_or, or_false, inherited]
      cases extensionOf (toLowerCase (rawName path)) <;> simp

theorem not_isSourcePath_inherited (keepsDots : KeepsDots toLowerCase)
    (inherited : rawName path ∈ inheritedNames) : ¬ IsSourcePath toLowerCase path := by
  rintro (listed | ⟨extension, isExtension, -⟩)
  · exact inherited_notListed _ inherited listed
  · unfold extensionOf at isExtension
    split_ifs at isExtension with dot
    exact inherited_noDot _ inherited (keepsDots _ dot)

theorem exists_listed {language : SourceLanguage}
    (classified : classifyNormalizedTargetSourcePath toLowerCase path = some language)
    (own : rawName path ∉ inheritedNames) : ∃ listed, language = .listed listed := by
  unfold classifyNormalizedTargetSourcePath basenameLanguage extensionLanguage at classified
  cases listed : languageBasenames.lookup (rawName path) with
  | some known =>
    rw [listed] at classified
    exact ⟨known, (Option.some.inj classified).symm⟩
  | none =>
    rw [listed] at classified
    simp only [if_neg own] at classified
    obtain ⟨extension, -, found⟩ := Option.bind_eq_some_iff.mp classified
    obtain ⟨known, -, same⟩ := Option.map_eq_some_iff.mp found
    exact ⟨known, same.symm⟩

/-! ## Directories -/

theorem exists_name (slash : 0x2f ∈ path) :
    ∃ name, path = directoryOf path ++ 0x2f :: name ∧ 0x2f ∉ name := by
  have front : path.rdropWhile (· != 0x2f) ≠ [] := fun none => by
    simpa using rdropWhile_eq_nil_iff.mp none _ slash
  have last := rdropWhile_last_not (· != 0x2f) path front
  simp only [bne_iff_ne, ne_eq, not_not] at last
  refine ⟨rawName path, ?_, fun inName => by simpa using mem_rtakeWhile_imp inName⟩
  have split := (dropLast_append_getLast front).symm
  rw [last] at split
  rw [directoryOf, if_pos slash, ← singleton_append, ← append_assoc, ← split]
  exact rdropWhile_append_rtakeWhile.symm

theorem pathSegments_name {name : Text} (slashless : 0x2f ∉ name) : pathSegments name = [name] := by
  have joined := splitOn_intercalate 0x2f (forall_mem_singleton.mpr slashless) (cons_ne_nil name [])
  rw [intercalate_singleton] at joined
  exact joined

theorem dropLast_pathSegments : (pathSegments path).dropLast =
    if 0x2f ∈ path then pathSegments (directoryOf path) else [] := by
  split_ifs with slash
  · obtain ⟨name, split, slashless⟩ := exists_name slash
    conv_lhs => rw [split]
    rw [RepositoryPath.pathSegments_append, pathSegments_name slashless, dropLast_concat]
  · rw [pathSegments_name slash]
    rfl

/-- The directories of two files are the same exactly if their segments in front of the last are. -/
theorem directoryOf_eq_iff {other : RelativePath}
    (file : isRepositoryRelativePath path = true ∧ path ≠ repositoryRoot)
    (file' : isRepositoryRelativePath other = true ∧ other ≠ repositoryRoot) :
    directoryOf path = directoryOf other ↔
      (pathSegments path).dropLast = (pathSegments other).dropLast := by
  have below : ∀ path : RelativePath, isRepositoryRelativePath path = true →
      path ≠ repositoryRoot → 0x2f ∈ path → directoryOf path ≠ repositoryRoot := by
    intro path canonical notRoot slash top
    obtain ⟨name, split, -⟩ := exists_name slash
    have segments := RepositoryPath.pathSegments_append (directoryOf path) name
    rw [← split, top] at segments
    have dot : js "." ∈ pathSegments path := segments ▸ mem_append_left _ (by decide)
    exact (RepositoryPath.canonical_of_mem_pathSegments canonical notRoot _ dot).ne_dot rfl
  have injective : Function.Injective pathSegments :=
    Function.LeftInverse.injective RepositoryPath.joinSegments_pathSegments
  rw [dropLast_pathSegments, dropLast_pathSegments]
  by_cases slash : 0x2f ∈ path <;> by_cases slash' : 0x2f ∈ other
  · rw [if_pos slash, if_pos slash', injective.eq_iff]
  · rw [if_pos slash, if_neg slash', directoryOf.eq_1 other, if_neg slash']
    exact iff_of_false (below path file.1 file.2 slash) (RepositoryPath.pathSegments_ne_nil _)
  · rw [if_neg slash, if_pos slash', directoryOf.eq_1 path, if_neg slash]
    exact iff_of_false (below other file'.1 file'.2 slash').symm
      (RepositoryPath.pathSegments_ne_nil _).symm
  · simp [directoryOf, slash, slash']

/-! ## What a range leaves out -/

theorem lt_bound_iff {rest : Text} (ok : wellFormed rest = true) :
    rest < [0xdbff, 0xdfff] ↔ sortsLast rest = false := by
  have unit_lt : ∀ u v : CodeUnit, u < v ↔ u.toNat < v.toNat := fun _ _ => Iff.rfl
  have unit_eq : ∀ u v : CodeUnit, u = v ↔ u.toNat = v.toNat := fun _ _ => UInt16.toNat_inj.symm
  match rest, ok with
  | [], _ => simp [sortsLast]
  | [u], ok =>
    simp only [wellFormed, Bool.not_eq_true', isSurrogate_eq_false_iff, isHighSurrogate,
      isLowSurrogate, Bool.and_eq_false_iff, decide_eq_false_iff_not] at ok
    simp only [cons_lt_cons_iff, nil_lt_cons, and_true, unit_lt, unit_eq, sortsLast,
      decide_eq_false_iff_not]
    have high : (0xdbff : CodeUnit).toNat = 0xdbff := rfl
    rw [high]
    omega
  | u :: v :: tail, ok =>
    have high : (0xdbff : CodeUnit).toNat = 0xdbff := rfl
    have low : (0xdfff : CodeUnit).toNat = 0xdfff := rfl
    simp only [cons_lt_cons_iff, not_lt_nil, and_false, or_false, unit_lt, unit_eq,
      sortsLast, Bool.or_eq_false_iff, decide_eq_false_iff_not, Bool.and_eq_false_iff,
      beq_eq_false_iff_ne, ne_eq, high, low]
    unfold wellFormed at ok
    split_ifs at ok with isHigh
    · simp only [Bool.and_eq_true, isLowSurrogate, isHighSurrogate, decide_eq_true_iff] at ok isHigh
      omega
    · simp only [Bool.and_eq_true, Bool.not_eq_true', isLowSurrogate, isHighSurrogate,
        decide_eq_true_iff, Bool.and_eq_false_iff, decide_eq_false_iff_not] at ok isHigh
      omega

/-! ## Coverage of an accepted input -/

/-- An accepted input has been read, its targets selected and its result assembled. -/
theorem sampleTargets_eq_ok {clock : TargetSamplerClock} {value options : JsValue}
    (accepts : sampleTargets toLowerCase clock value options = .ok result) :
    ∃ limits fields input reasons, value = .object fields ∧
      InputRead toLowerCase clock limits fields input ∧
      selectTargets limits input.normalized (sourcesOf toLowerCase input.normalized.paths)
        ((sourcesOf toLowerCase input.normalized.paths).map
          (candidateOf (sortedStatesAt (.object fields)))) = .ok reasons ∧
      result = assembleResult limits input.normalized (sourcesOf toLowerCase input.normalized.paths)
        ((sourcesOf toLowerCase input.normalized.paths).map
          (candidateOf (sortedStatesAt (.object fields)))) reasons := by
  unfold sampleTargets sampleInput at accepts
  simp only [bind_eq_ok] at accepts
  obtain ⟨limits, -, -, -, _, normalizes, reasons, selects, -, -, finish⟩ := accepts
  cases finish
  obtain ⟨fields, input, shape, reads, rfl⟩ := normalizeInput_eq_ok.mp normalizes
  rw [candidates_eq reads] at selects ⊢
  exact ⟨limits, fields, input, reasons, shape.eq, reads, selects, rfl⟩

theorem Covers.perm {kind : TargetCoverageKind} {id : Text}
    {members members' : List RelativePath} (covers : Covers result kind id members)
    (perm : members.Perm members') : Covers result kind id members' := by
  obtain ⟨criterion, only, count, status, selects⟩ := covers
  refine ⟨criterion, only, count.trans perm.length_eq, status, fun nonempty => ?_⟩
  have filled : members ≠ [] := by
    rintro rfl
    exact nonempty perm.nil_eq.symm
  obtain ⟨path, member, rest⟩ := selects filled
  exact ⟨path, perm.mem_iff.mp member, rest⟩

section Coverage

variable {toLowerCase : Text → Text} {clock : TargetSamplerClock}
  {limits : TargetSamplerLimits} {fields : List (Text × JsValue)} {input : SampleTargetsInput}
  {sources : List Source} {candidates : List Candidate} {reasons : Reasons}

variable {criterion : TargetCoverageCriterion}

/-- A criterion is the only one under its key. -/
theorem filter_coverage (critical : input.criticalPaths.Nodup)
    (required : criterion ∈ requiredCriteria input.normalized candidates) :
    ((assembleResult limits input.normalized sources candidates reasons).coverage.filter fun other =>
      other.kind = criterion.kind ∧ other.id = criterion.id) = [criterion] := by
  have perm := sortBy_perm compareCriteria (allCriteria limits input.normalized sources candidates)
  have distinct := (perm.map criterionKey).nodup_iff.mpr
    (nodup_allCriteria critical sources candidates)
  have member : criterion ∈ sortBy compareCriteria
      (allCriteria limits input.normalized sources candidates) :=
    perm.mem_iff.mpr (mem_append_right _ required)
  rw [← filter_eq_singleton distinct member]
  exact filter_congr fun other _ => decide_eq_decide.mpr
    ⟨fun same => Prod.ext same.1 same.2, fun same => Prod.ext_iff.mp same⟩

section

variable (selects : selectTargets limits input.normalized sources candidates = .ok reasons)

include selects

theorem covers_of_mem (critical : input.criticalPaths.Nodup)
    (required : criterion ∈ requiredCriteria input.normalized candidates)
    {members : List RelativePath} (count : criterion.candidateCount = members.length)
    (status : criterion.status = .unavailable ↔ members = [])
    (selected : criterion.selectedPath = members.head?) :
    Covers (assembleResult limits input.normalized sources candidates reasons) criterion.kind
      criterion.id members := by
  refine ⟨criterion, filter_coverage critical required, count, ?_, fun nonempty => ?_⟩
  · rw [status, count, length_eq_zero_iff]
  · obtain ⟨path, rest, rfl⟩ := exists_cons_of_ne_nil nonempty
    obtain ⟨own, found, reason⟩ := selectTargets_selects selects criterion required path selected
    refine ⟨path, mem_cons_self, selected, sampledTarget candidates (path, own), ?_, rfl, ?_⟩
    · refine mem_map.mpr ⟨(path, own), (mem_sortBy _).mpr ?_, rfl⟩
      exact OrderedMap.mem_entries_of_get? found
    · exact (mem_sortBy _).mpr reason

theorem covers_critical (reads : InputRead toLowerCase clock limits fields input)
    {path : RelativePath} (member : path ∈ input.criticalPaths) :
    Covers (assembleResult limits input.normalized sources candidates reasons) .criticalPath path
      (input.paths.filter (· = path)) := by
  have members : input.paths.filter (· = path) =
      if path ∈ input.normalized.paths then [path] else [] := by
    have tracked : path ∈ input.normalized.paths ↔ path ∈ input.paths := mem_sortBy _
    split_ifs with known
    · have distinct : (input.paths.map id).Nodup := (map_id input.paths).symm ▸ reads.paths.nodup
      exact filter_eq_singleton distinct (tracked.mp known)
    · refine filter_eq_nil_iff.mpr fun other inPaths same => known (tracked.mpr ?_)
      exact of_decide_eq_true same ▸ inPaths
  have required : criticalCriterion input.normalized.paths path ∈
      requiredCriteria input.normalized candidates := by
    have inCritical : path ∈ input.normalized.criticalPaths := (mem_sortBy _).mpr member
    simp only [requiredCriteria, mem_append]
    exact .inl (.inl (.inl (mem_map_of_mem inCritical)))
  rw [members]
  refine covers_of_mem selects reads.critical.nodup required rfl ?_ rfl
  unfold criticalCriterion criterion
  split_ifs <;> simp_all

/-- A group of candidates is covered under its identifier. -/
theorem covers_group (critical : input.criticalPaths.Nodup) {kind : TargetCoverageKind}
    {id : Candidate → Text} (groups : ∀ entry ∈ sortedEntries (tallyBy id candidates),
      groupCriterion kind entry ∈ requiredCriteria input.normalized candidates)
    {candidate : Candidate} (member : candidate ∈ candidates) :
    Covers (assembleResult limits input.normalized sources candidates reasons) kind (id candidate)
      ((candidates.filter fun other => id other = id candidate).map (·.path)) := by
  have own : candidate ∈ candidates.filter fun other => id other = id candidate :=
    mem_filter.mpr ⟨member, decide_eq_true rfl⟩
  obtain ⟨first, rest, same⟩ := exists_cons_of_ne_nil (ne_nil_of_mem own)
  have found := get?_tallyBy id candidates (id candidate)
  rw [same] at found
  have required := groups (id candidate, { count := (first :: rest).length, first := first.path })
    (mem_sortedEntries.mpr found)
  rw [same]
  refine covers_of_mem selects critical required ?_ ?_ rfl
  · exact (length_map _).symm
  · exact ⟨fun status => (nomatch status), fun nil => (nomatch nil)⟩

end

theorem workspaceCriterion_mem (candidates : List Candidate) {root : RelativePath}
    (member : root ∈ input.workspaceRoots) :
    workspaceCriterion (candidates.map (·.path)) { id := root, root } ∈
      requiredCriteria input.normalized candidates := by
  have known : ({ id := root, root } : NormalizedWorkspace) ∈ input.normalized.workspaces :=
    mem_sortedWorkspaces.mpr ⟨member, rfl⟩
  simp only [requiredCriteria, mem_append]
  exact .inl (.inl (.inr (mem_map_of_mem known)))

end Coverage

section Workspaces

variable {paths : List RelativePath} (root : RelativePath)

theorem filter_belowRoot_root (top : (root == repositoryRoot) = true) :
    (paths.filter fun path => root == repositoryRoot || (root ++ js "/").isPrefixOf path) = paths :=
  filter_eq_self.mpr fun path _ => by rw [top, Bool.true_or]

theorem underRootRange_first (increasing : paths.Pairwise (· < ·)) :
    (underRootRange paths root).2 = (paths.filter (belowRoot root)).head? := by
  unfold underRootRange belowRoot
  split_ifs with top
  · rw [filter_belowRoot_root root (beq_iff_eq.mpr top)]
  · have below : ∀ path, underRoot path root = (root ++ js "/").isPrefixOf path := fun path => by
      rw [underRoot, beq_eq_false_iff_ne.mpr top, Bool.false_or]
    simp only [below, beq_eq_false_iff_ne.mpr top, Bool.false_or]
    exact first_under increasing (root ++ js "/")

/-- The count of a range is the number of paths below the root exactly if none of them sorts behind
the bound. -/
theorem underRootRange_count (increasing : paths.Pairwise (· < ·))
    (unicode : ∀ path ∈ paths, wellFormed path = true) :
    (underRootRange paths root).1 = (paths.filter (belowRoot root)).length ↔
      (root ≠ repositoryRoot → ∀ path ∈ paths, ∀ rest, path = root ++ js "/" ++ rest →
        sortsLast rest = false) := by
  unfold underRootRange belowRoot
  split_ifs with top
  · rw [filter_belowRoot_root root (beq_iff_eq.mpr top)]
    exact iff_of_true rfl fun other => absurd top other
  · simp only [beq_eq_false_iff_ne.mpr top, Bool.false_or]
    have inner : (paths.filter fun path => (root ++ js "/").isPrefixOf path &&
        decide (path < root ++ js "/" ++ [0xdbff, 0xdfff])) =
          (paths.filter fun path => (root ++ js "/").isPrefixOf path).filter fun path =>
            decide (path < root ++ js "/" ++ [0xdbff, 0xdfff]) := by
      rw [filter_filter]
      exact filter_congr fun path _ => Bool.and_comm _ _
    have bound : ∀ path ∈ paths, ∀ rest, path = root ++ js "/" ++ rest →
        (path < root ++ js "/" ++ [0xdbff, 0xdfff] ↔ sortsLast rest = false) := by
      rintro path member rest rfl
      have ok := unicode _ member
      rw [append_assoc] at ok
      have split := (wellFormed_append_cons (by decide) root rest).symm.trans ok
      rw [← lt_bound_iff (Bool.and_eq_true_iff.mp split).2]
      exact ⟨PrefixOrder.lt_of_append_lt_append, fun less => append_left_lt less⟩
    rw [count_between increasing, inner, length_filter_eq_length_iff]
    constructor
    · rintro all - path member rest rfl
      have continues := isPrefixOf_iff_prefix.mpr (prefix_append (root ++ js "/") rest)
      have less := all _ (mem_filter.mpr ⟨member, continues⟩)
      exact (bound _ member rest rfl).mp (of_decide_eq_true less)
    · intro none path member
      obtain ⟨inPaths, continues⟩ := mem_filter.mp member
      obtain ⟨rest, rfl⟩ := isPrefixOf_iff_prefix.mp continues
      exact decide_eq_true ((bound _ inPaths rest rfl).mpr (none top _ inPaths rest rfl))

end Workspaces

section Sampled

variable {toLowerCase : Text → Text} {clock : TargetSamplerClock} {limits : TargetSamplerLimits}
  {fields : List (Text × JsValue)} {input : SampleTargetsInput} {reasons : Reasons}

variable {path : RelativePath}

variable {language : TargetSourceLanguage} {source : Source}

abbrev candidatesOf (toLowerCase : Text → Text) (fields : List (Text × JsValue))
    (input : SampleTargetsInput) : List Candidate :=
  (sourcesOf toLowerCase input.normalized.paths).map
    (candidateOf (sortedStatesAt (.object fields)))

abbrev resultOf (toLowerCase : Text → Text) (limits : TargetSamplerLimits)
    (fields : List (Text × JsValue)) (input : SampleTargetsInput) (reasons : Reasons) :
    TargetSamplingResult :=
  assembleResult limits input.normalized (sourcesOf toLowerCase input.normalized.paths)
    (candidatesOf toLowerCase fields input) reasons

theorem path_candidatesOf : (candidatesOf toLowerCase fields input).map (·.path) =
    sourcePaths toLowerCase input.paths := map_map

theorem mem_sourcesOf {paths : List RelativePath} (member : source ∈ sourcesOf toLowerCase paths) :
    classifyNormalizedTargetSourcePath toLowerCase source.path = some source.language ∧
      source.directory = directoryOf source.path := by
  obtain ⟨path, -, found⟩ := mem_filterMap.mp member
  obtain ⟨language, classified, rfl⟩ := Option.map_eq_some_iff.mp found
  exact ⟨classified, rfl⟩

theorem sourcePaths_increasing (reads : InputRead toLowerCase clock limits fields input) :
    (sourcePaths toLowerCase input.paths).Pairwise (· < ·) := by
  rw [sourcePaths_eq]
  exact (sortBy_compareUnits_strict reads.paths.nodup).filter _

theorem sourcePaths_files (reads : InputRead toLowerCase clock limits fields input) :
    ∀ path ∈ sourcePaths toLowerCase input.paths,
      isRepositoryRelativePath path = true ∧ path ≠ repositoryRoot := by
  intro path member
  rw [sourcePaths_eq] at member
  have inPaths : path ∈ input.paths := (mem_sortBy _).mp (mem_of_mem_filter member)
  obtain ⟨raw, -, all⟩ := reads.paths.dense
  obtain ⟨_, -, -, isFile⟩ := exists_right_of_forall₂ all inPaths
  obtain ⟨root, notRoot⟩ := Bool.and_eq_true_iff.mp isFile
  exact ⟨(Bool.and_eq_true_iff.mp root).2, bne_iff_ne.mp notRoot⟩

theorem sourcePaths_wellFormed (reads : InputRead toLowerCase clock limits fields input) :
    ∀ path ∈ sourcePaths toLowerCase input.paths, wellFormed path = true := by
  intro path member
  have accepted :=
    RepositoryPath.isRepositoryRelativePath_eq_true.mp (sourcePaths_files reads path member).1
  exact (RepositoryPath.canonicalize_eq_ok.mp accepted).1.unicode

section

variable (selects : selectTargets limits input.normalized (sourcesOf toLowerCase input.normalized.paths) (candidatesOf toLowerCase fields input) = .ok reasons)

include selects

/-- A workspace root is covered exactly if its range counts what is below it. -/
theorem covers_workspace_iff (reads : InputRead toLowerCase clock limits fields input)
    {root : RelativePath} (member : root ∈ input.workspaceRoots) :
    Covers (resultOf toLowerCase limits fields input reasons) .workspaceRoot root
        ((sourcePaths toLowerCase input.paths).filter (belowRoot root)) ↔
      (underRootRange (sourcePaths toLowerCase input.paths) root).1 =
        ((sourcePaths toLowerCase input.paths).filter (belowRoot root)).length := by
  have required := workspaceCriterion_mem (candidatesOf toLowerCase fields input) member
  rw [path_candidatesOf] at required
  constructor
  · rintro ⟨criterion, only, count, -⟩
    have own := only.symm.trans (filter_coverage reads.critical.nodup required)
    rw [← count, (cons.inj own).1]
    rfl
  · intro count
    have first := underRootRange_first root (sourcePaths_increasing reads)
    refine covers_of_mem selects reads.critical.nodup required count ?_ first
    have status : (workspaceCriterion (sourcePaths toLowerCase input.paths)
        { id := root, root }).status =
          if ((sourcePaths toLowerCase input.paths).filter (belowRoot root)).head? = none then
            .unavailable else .covered := by rw [← first]; rfl
    rw [status]
    split_ifs with none
    · exact iff_of_true rfl (head?_eq_none_iff.mp none)
    · exact iff_of_false (fun covered => nomatch covered) fun nil =>
        none (head?_eq_none_iff.mpr nil)

/-- A group of candidates is covered by the source paths that belong to it. -/
theorem covers_sources (reads : InputRead toLowerCase clock limits fields input)
    {kind : TargetCoverageKind} (id : Candidate → Text)
    (groups : ∀ entry ∈ sortedEntries (tallyBy id (candidatesOf toLowerCase fields input)),
      groupCriterion kind entry ∈
        requiredCriteria input.normalized (candidatesOf toLowerCase fields input))
    (member : source ∈ sourcesOf toLowerCase input.normalized.paths) {belongs : RelativePath → Bool}
    (agree : ∀ other ∈ sourcesOf toLowerCase input.normalized.paths, belongs other.path = decide
        (id (candidateOf (sortedStatesAt (.object fields)) other) =
          id (candidateOf (sortedStatesAt (.object fields)) source))) :
    Covers (resultOf toLowerCase limits fields input reasons) kind
      (id (candidateOf (sortedStatesAt (.object fields)) source))
      ((sourcePathsOf toLowerCase (.object fields)).filter belongs) := by
  have covers := covers_group selects reads.critical.nodup groups (mem_map_of_mem member)
  have members : ((candidatesOf toLowerCase fields input).filter fun other => id other =
      id (candidateOf (sortedStatesAt (.object fields)) source)).map (·.path) =
        (sourcePaths toLowerCase input.paths).filter belongs := by
    have same := filter_congr agree
    unfold sourcePaths
    rw [candidatesOf, filter_map, filter_map, map_map]
    exact congrArg (map (·.path)) same.symm
  rw [members] at covers
  exact covers.perm ((sourcePaths_perm reads).filter _)

end

theorem exists_source (reads : InputRead toLowerCase clock limits fields input) (member : path ∈ sourcePathsOf toLowerCase (.object fields)) :
    ∃ source ∈ sourcesOf toLowerCase input.normalized.paths, source.path = path :=
  mem_map.mp ((sourcePaths_perm reads).mem_iff.mpr member)

/-- Where no two state vectors have one digest, the ids of partitions tell them apart. -/
theorem partitionAt_eq_iff (reads : InputRead toLowerCase clock limits fields input)
    (free : Sha256.CollisionFree (partitionInputs toLowerCase (.object fields)))
    {other : RelativePath} (first : path ∈ sourcePathsOf toLowerCase (.object fields))
    (second : other ∈ sourcePathsOf toLowerCase (.object fields)) :
    partitionAt (.object fields) path = partitionAt (.object fields) other ↔
      sortedStatesAt (.object fields) path = sortedStatesAt (.object fields) other := by
  refine ⟨fun same => ?_, congrArg partitionId⟩
  have inputs := free _ (mem_map_of_mem first) _ (mem_map_of_mem second) (append_cancel_left same)
  have observed : ∀ path ∈ sourcePathsOf toLowerCase (.object fields),
      ∃ observation ∈ input.activationObservations,
        sortedStatesAt (.object fields) path = observation.states := by
    intro path source
    obtain ⟨observation, member, rfl⟩ :=
      exists_observation reads ((sourcePaths_perm reads).mem_iff.mpr source)
    exact ⟨observation, member, statesAt_eq reads member⟩
  obtain ⟨observation, member, states⟩ := observed path first
  obtain ⟨observation', member', states'⟩ := observed other second
  refine partitionInput_injective ?_ inputs
  rw [states, states']
  exact reads.observations.consistent.agree observation member observation' member'

theorem covers_partition
    (selects : selectTargets limits input.normalized (sourcesOf toLowerCase input.normalized.paths)
      (candidatesOf toLowerCase fields input) = .ok reasons)
    (reads : InputRead toLowerCase clock limits fields input)
    (free : Sha256.CollisionFree (partitionInputs toLowerCase (.object fields)))
    (member : path ∈ sourcePathsOf toLowerCase (.object fields)) :
    Covers (resultOf toLowerCase limits fields input reasons) .scopePartition
      (partitionAt (.object fields) path)
      ((sourcePathsOf toLowerCase (.object fields)).filter
        (sortedStatesAt (.object fields) · = sortedStatesAt (.object fields) path)) := by
  obtain ⟨source, inSources, rfl⟩ := exists_source reads member
  refine covers_sources selects reads (·.partitionId) (fun entry inEntries => ?_) inSources
    fun other inOthers => decide_eq_decide.mpr ?_
  · simp only [requiredCriteria, mem_append]
    exact .inl (.inr (mem_map_of_mem inEntries))
  · have listed : other.path ∈ sourcePathsOf toLowerCase (.object fields) :=
      (sourcePaths_perm reads).mem_iff.mp (mem_map_of_mem inOthers)
    exact (partitionAt_eq_iff reads free listed member).symm

theorem languageDirectoryId_eq_iff {directory : RelativePath}
    (listed : ∃ own, source.language = .listed own) :
    source.language.text ++ js ":" ++ source.directory = language.text ++ js ":" ++ directory ↔
      source.language = .listed language ∧ source.directory = directory := by
  obtain ⟨own, isListed⟩ := listed
  rw [isListed]
  constructor
  · intro same
    rw [append_assoc, append_assoc] at same
    obtain ⟨text, rest⟩ := Netstring.append_cons_inj (colon_notMem_language own)
      (colon_notMem_language language) same
    exact ⟨congrArg _ (language_text_injective text), rest⟩
  · rintro ⟨same, rfl⟩
    cases same
    rfl

theorem covers_languageDirectory
    (selects : selectTargets limits input.normalized (sourcesOf toLowerCase input.normalized.paths)
      (candidatesOf toLowerCase fields input) = .ok reasons)
    (reads : InputRead toLowerCase clock limits fields input)
    (own : ∀ path ∈ trackedPaths (.object fields), rawName path ∉ inheritedNames) (member : path ∈ sourcePathsOf toLowerCase (.object fields))
    (isListed : classifyNormalizedTargetSourcePath toLowerCase path = some (.listed language)) :
    Covers (resultOf toLowerCase limits fields input reasons) .languageDirectory
      (language.text ++ js ":" ++ directoryOf path)
      ((sourcePathsOf toLowerCase (.object fields)).filter
        (inLanguageDirectory toLowerCase language path)) := by
  obtain ⟨source, inSources, rfl⟩ := exists_source reads member
  obtain ⟨classified, directory⟩ := mem_sourcesOf inSources
  have same : source.language = .listed language := Option.some.inj (classified.symm.trans isListed)
  have id : languageDirectoryId
      (candidateOf (sortedStatesAt (.object fields)) source) =
        language.text ++ js ":" ++ directoryOf source.path := by
    change source.language.text ++ js ":" ++ source.directory = _
    rw [same, directory]
    rfl
  rw [← id]
  refine covers_sources selects reads languageDirectoryId (fun entry inEntries => ?_) inSources
    fun other inOthers => ?_
  · simp only [requiredCriteria, mem_append]
    exact .inr (mem_map_of_mem inEntries)
  · obtain ⟨otherClassified, otherDirectory⟩ := mem_sourcesOf inOthers
    have tracked : other.path ∈ trackedPaths (.object fields) :=
      mem_of_mem_filter ((sourcePaths_perm reads).mem_iff.mp (mem_map_of_mem inOthers))
    have listed := exists_listed otherClassified (own _ tracked)
    have belongs : languageDirectoryId
        (candidateOf (sortedStatesAt (.object fields)) other) =
          language.text ++ js ":" ++ directoryOf source.path ↔
        other.language = .listed language ∧ other.directory = directoryOf source.path :=
      languageDirectoryId_eq_iff listed
    have files := sourcePaths_files reads
    rw [otherDirectory, directoryOf_eq_iff (files _ (mem_map_of_mem inOthers))
      (files _ (mem_map_of_mem inSources))] at belongs
    rw [id, inLanguageDirectory, otherClassified, Bool.eq_iff_iff, Bool.and_eq_true, beq_iff_eq,
      beq_iff_eq, Option.some.injEq, decide_eq_true_iff, belongs]

end Sampled

/-- A sample is sound exactly if no tracked path has an inherited name and no source below a
workspace root sorts behind the bound of its range. -/
theorem sampleTargets_sound_iff {toLowerCase : Text → Text} {clock : TargetSamplerClock}
    {value options : JsValue} {result : TargetSamplingResult} (keepsDots : KeepsDots toLowerCase)
    (accepts : sampleTargets toLowerCase clock value options = .ok result) :
    ((∀ path, path ∈ sourcePathsOf toLowerCase value ↔
        path ∈ trackedPaths value ∧ IsSourcePath toLowerCase path) ∧
      CoversAll toLowerCase value result ∧
      ∀ value', Reordered value value' →
        sampleTargets toLowerCase clock value' options = .ok result) ↔
      (∀ path ∈ trackedPaths value, rawName path ∉ inheritedNames) ∧
        ∀ root ∈ workspaceRootsOf value, root ≠ repositoryRoot →
          ∀ path ∈ sourcePathsOf toLowerCase value, ∀ rest, path = root ++ js "/" ++ rest →
            sortsLast rest = false := by
  have orderFree : ∀ value', Reordered value value' →
      sampleTargets toLowerCase clock value' options = .ok result :=
    fun _ => sampleTargets_reordered accepts
  obtain ⟨limits, fields, input, reasons, rfl, reads, selects, rfl⟩ := sampleTargets_eq_ok accepts
  have perm := sourcePaths_perm reads
  have roots := workspaceRootsOf_eq reads
  have covered : ∀ root ∈ input.workspaceRoots,
      Covers (resultOf toLowerCase limits fields input reasons) .workspaceRoot root
          ((sourcePathsOf toLowerCase (.object fields)).filter (belowRoot root)) ↔
        (root ≠ repositoryRoot → ∀ path ∈ sourcePathsOf toLowerCase (.object fields), ∀ rest,
          path = root ++ js "/" ++ rest → sortsLast rest = false) := by
    intro root member
    simp only [← perm.mem_iff]
    rw [← underRootRange_count root (sourcePaths_increasing reads) (sourcePaths_wellFormed reads),
      ← covers_workspace_iff selects reads member]
    exact ⟨fun covers => covers.perm (perm.symm.filter _), fun covers => covers.perm (perm.filter _)⟩
  constructor
  · rintro ⟨sources, covers, -⟩
    refine ⟨fun path tracked inherited => ?_, fun root member => ?_⟩
    · have taken : path ∈ sourcePathsOf toLowerCase (.object fields) :=
        mem_filter.mpr ⟨tracked, classify_isSome.mpr (.inr inherited)⟩
      exact not_isSourcePath_inherited keepsDots inherited ((sources path).mp taken).2
    · exact (covered root (roots ▸ member)).mp (covers.workspace root member)
  · rintro ⟨own, visible⟩
    refine ⟨fun path => ?_, ⟨fun path member => ?_, fun root member => ?_,
      fun free path member => ?_, fun path member language listed => ?_⟩, orderFree⟩
    · rw [sourcePathsOf, mem_filter, classify_isSome]
      exact and_congr_right fun tracked => or_iff_left (own path tracked)
    · rw [criticalPathsOf_eq reads] at member
      rw [trackedPaths_eq reads]
      exact covers_critical selects reads member
    · exact (covered root (roots ▸ member)).mpr (visible root member)
    · exact covers_partition selects reads free member
    · exact covers_languageDirectory selects reads own member listed

/-! ## Inputs -/

theorem keepsDots_asciiLowerCase : KeepsDots asciiLowerCase := by
  intro name member
  obtain ⟨u, inName, same⟩ := mem_map.mp member
  have lower : ∀ u : CodeUnit, 0x41 ≤ u ∧ u ≤ 0x5a → u + 0x20 ≠ 0x2e := by
    rintro u ⟨above, below⟩ dot
    have value := congrArg UInt16.toNat dot
    rw [UInt16.toNat_add] at value
    rw [UInt16.le_iff_toNat_le] at above below
    simp at value above below
    omega
  split_ifs at same with upper
  · exact absurd same (lower u upper)
  · exact same ▸ inName

/-- A clock that never runs late. -/
def steadyClock : TargetSamplerClock := ⟨true, fun _ => .inTime⟩

def observationOf (path state : String) : JsValue :=
  .object [(js "path", .string (js path)), (js "states", .array [.object
    [(js "ruleId", .string (js "rule-a")), (js "state", .string (js state))]])]

def packageAt (root : String) : JsValue :=
  .object [(js "evidencePath", .string (js "package.json")),
    (js "family", .string (js "javascript-package")), (js "kind", .string (js "project")),
    (js "languages", .array [.string (js "javascript")]), (js "root", .string (js root))]

def inputWith (paths roots : List String) (sources : List (String × String)) : JsValue :=
  .object [(js "activationObservations", .array (sources.map fun source =>
      observationOf source.1 source.2)),
    (js "criticalPaths", .array []), (js "paths", .array (paths.map fun path => .string (js path))),
    (js "trackingCertainty", .string (js "tracked")),
    (js "trackingReason", .string (js "verified-git-index")),
    (js "workspaceBoundaries", .array (roots.map packageAt)),
    (js "workspaceUncertainty", .string (js "known")),
    (js "workspaceUncertaintyReasons", .array [])]

theorem exists_of_isOk {α : Type} {x : Sampled α} (accepted : x.isOk = true) :
    ∃ result, x = .ok result := by
  cases x with
  | ok result => exact ⟨result, rfl⟩
  | error e => cases accepted

/-- Two sources below a root, in two partitions. -/
def twoSources : JsValue :=
  inputWith ["src/a.ts", "src/b.py", "README.md"] ["src"]
    [("src/a.ts", "active"), ("src/b.py", "inactive")]

/-- The sample covers the partition of each source. -/
theorem sampleTargets_sound_iff_src : ∃ result,
    sampleTargets asciiLowerCase steadyClock twoSources .undefined = .ok result ∧
      CoversAll asciiLowerCase twoSources result ∧
      Covers result .scopePartition (partitionAt twoSources (js "src/b.py")) [js "src/b.py"] := by
  obtain ⟨result, accepts⟩ : ∃ result, sampleTargets asciiLowerCase steadyClock twoSources .undefined =
    .ok result := exists_of_isOk (by decide +kernel)
  have roots : workspaceRootsOf twoSources = [js "src"] := by decide
  have sources : sourcePathsOf asciiLowerCase twoSources =
      [js "src" ++ js "/" ++ js "a.ts", js "src" ++ js "/" ++ js "b.py"] := by decide +kernel
  have covers := ((sampleTargets_sound_iff keepsDots_asciiLowerCase accepts).mpr (by
    refine ⟨by decide, ?_⟩
    rw [roots, sources]
    intro root inRoots _ path inSources rest below
    cases mem_singleton.mp inRoots
    rcases mem_cons.mp inSources with rfl | second
    · rw [← append_cancel_left below]
      decide
    · cases mem_singleton.mp second
      rw [← append_cancel_left below]
      decide)).2.1
  have free : Sha256.CollisionFree (partitionInputs asciiLowerCase twoSources) := by decide +kernel
  refine ⟨result, accepts, covers, ?_⟩
  have alone := covers.partition free (js "src/b.py") (by decide +kernel)
  rw [show (sourcePathsOf asciiLowerCase twoSources).filter (sortedStatesAt twoSources · =
    sortedStatesAt twoSources (js "src/b.py")) = [js "src/b.py"] by decide +kernel] at alone
  exact alone

/-- A tracked file named like an inherited property is sampled as a source. -/
theorem constructor_sampled : ∃ result,
    sampleTargets asciiLowerCase steadyClock (inputWith ["constructor"] [] [("constructor", "active")]) .undefined =
        .ok result ∧
      js "constructor" ∈ sourcePathsOf asciiLowerCase (inputWith ["constructor"] [] [("constructor", "active")]) ∧
      ¬ IsSourcePath asciiLowerCase (js "constructor") := by
  obtain ⟨result, accepts⟩ : ∃ result, sampleTargets asciiLowerCase steadyClock
      (inputWith ["constructor"] [] [("constructor", "active")]) .undefined = .ok result :=
    exists_of_isOk (by decide +kernel)
  refine ⟨result, accepts, by decide, not_isSourcePath_inherited keepsDots_asciiLowerCase (by decide)⟩

end AgentContextLint.TargetSampler
