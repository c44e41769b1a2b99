import AgentContextLint.Core.DiagnosticBaseline

/-!
# What a baseline comparison accounts for

A comparison looks every diagnostic up on its own, so that what it reports is a map over the
diagnostics (`compareDiagnostics_eq`). A diagnostic consumes an entry that has its semantic
identity, and only if no other diagnostic has the identity by which the entry was found: this is
why no entry is consumed twice (`eq_of_consumed`). The match identity determines the semantic one
since the JSON texts of both do.
-/

namespace AgentContextLint.DiagnosticBaseline

open Utf16 Metered DiagnosticValidation BaselineOutput List
open OutputSanitization (sanitizeOutputText)
open OrderedMap (empty get?_set members_group)

variable {classifications : List BaselineDiagnosticClassification}
  {kinds : OrderedMap Text BaselineDiagnosticKind} {diagnostics : List Diagnostic}
  {current : BaselineEntry} {index : Nat}
  {lookup : Lookup} {verdict : Verdict} {entry other : BaselineEntry} {κ β ι : Type}

/-! ## Identities -/

theorem severityText_injective {severity other : DiagnosticSeverity}
    (same : severity.text = other.text) : severity = other := by
  cases severity <;> cases other <;> first | rfl | exact absurd same (by decide)

/-- What a match identity is the text of. -/
structure SameMatch (entry other : BaselineEntry) : Prop where
  ruleId : entry.ruleId = other.ruleId
  ruleVersion : entry.ruleVersion = other.ruleVersion
  severity : entry.severity = other.severity
  path : entry.path = other.path
  semanticFingerprint : entry.semanticFingerprint = other.semanticFingerprint
  pathFingerprint : entry.pathFingerprint = other.pathFingerprint
  provenanceFingerprint : entry.provenanceFingerprint = other.provenanceFingerprint
  profileIds : entry.profileIds = other.profileIds
  surfaceIds : entry.surfaceIds = other.surfaceIds
  specSnapshotIds : entry.specSnapshotIds = other.specSnapshotIds

theorem matchIdentity_eq_iff :
    matchIdentity entry = matchIdentity other ↔ SameMatch entry other := by
  constructor
  · intro same
    have plain : ∀ item : BaselineEntry, Json.isPlain (.array [.string item.ruleId,
        .string item.ruleVersion, .string item.severity.text, .string item.path,
        .string item.semanticFingerprint, .string item.pathFingerprint,
        .string item.provenanceFingerprint, Json.texts item.profileIds,
        Json.texts item.surfaceIds, Json.texts item.specSnapshotIds]) = true := by
      intro item
      simp [Json.isPlain, Json.arePlain, Json.isPlain_texts]
    have values := Json.canonical_injective (plain entry) (plain other) same
    simp only [Json.array.injEq, cons.injEq, Json.string.injEq, and_true] at values
    obtain ⟨ruleId, ruleVersion, severity, path, semantic, pathPrint, provenance, profileIds,
      surfaceIds, specSnapshotIds⟩ := values
    exact ⟨ruleId, ruleVersion, severityText_injective severity, path, semantic, pathPrint,
      provenance, Json.texts_injective profileIds, Json.texts_injective surfaceIds,
      Json.texts_injective specSnapshotIds⟩
  · intro same
    simp [matchIdentity, same.ruleId, same.ruleVersion, same.severity, same.path,
      same.semanticFingerprint, same.pathFingerprint, same.provenanceFingerprint, same.profileIds,
      same.surfaceIds, same.specSnapshotIds]

theorem semanticIdentity_eq_of_match (same : matchIdentity entry = matchIdentity other) :
    semanticIdentity entry = semanticIdentity other := by
  have fields := matchIdentity_eq_iff.mp same
  simp [semanticIdentity, fields.ruleId, fields.ruleVersion, fields.severity,
    fields.semanticFingerprint, fields.provenanceFingerprint, fields.profileIds, fields.surfaceIds,
    fields.specSnapshotIds]

/-! ## Kinds -/

variable {items : List ι}

theorem get?_foldl_set_of_notMem [DecidableEq κ] (key : ι → κ) (value : ι → β) {asked : κ}
    (absent : ∀ item ∈ items, key item ≠ asked) (map : OrderedMap κ β) :
    (items.foldl (fun map item => map.set (key item) (value item)) map).get? asked =
      map.get? asked := by
  induction items generalizing map with
  | nil => rfl
  | cons item rest ih =>
    rw [foldl_cons, ih (fun other member => absent other (mem_cons_of_mem _ member)),
      get?_set, if_neg (absent item mem_cons_self)]

/-- A map built from a list of distinct keys has the value of each. -/
theorem get?_foldl_set [DecidableEq κ] (key : ι → κ) (value : ι → β)
    (distinct : (items.map key).Nodup) {item : ι} (member : item ∈ items) (map : OrderedMap κ β) :
    (items.foldl (fun map item => map.set (key item) (value item)) map).get? (key item) =
      some (value item) := by
  induction items generalizing map with
  | nil => cases member
  | cons first rest ih =>
    obtain ⟨apart, later⟩ := nodup_cons.mp distinct
    rcases mem_cons.mp member with rfl | inRest
    · rw [foldl_cons, get?_foldl_set_of_notMem key value, get?_set, if_pos rfl]
      intro other otherMember same
      exact apart (mem_map.mpr ⟨other, otherMember, same⟩)
    · rw [foldl_cons]
      exact ih later inRest _

section

variable (classified : classificationMap diagnostics classifications = some kinds)

include classified

/-- Every diagnostic has the kind of the classification at its place. -/
theorem kind_of_classificationMap
    {diagnostic : Diagnostic} (here : diagnostics[index]? = some diagnostic) :
    ∃ classification, classifications[index]? = some classification ∧
      kinds.get? diagnostic.id = some classification.kind := by
  unfold classificationMap at classified
  split_ifs at classified with agree
  obtain ⟨ids, distinct⟩ := agree
  cases classified
  have same : (classifications.map (·.diagnosticId))[index]? = some diagnostic.id := by
    rw [ids, getElem?_map, here]
    rfl
  rw [getElem?_map, Option.map_eq_some_iff] at same
  obtain ⟨classification, found, id⟩ := same
  refine ⟨classification, found, ?_⟩
  rw [← id]
  refine get?_foldl_set (·.diagnosticId) (·.kind) ?_ (mem_of_getElem? found) _
  rw [ids]
  exact distinct

theorem classificationMap_ids : (diagnostics.map (·.id)).Nodup := by
  unfold classificationMap at classified
  split_ifs at classified with agree
  exact agree.2

end

/-! ## The comparison as a map -/

def reportOf (lookup : Lookup) (kinds : OrderedMap Text BaselineDiagnosticKind)
    (item : Nat × Diagnostic × BaselineEntry) : BaselineDiagnosticComparison :=
  let verdict := verdictFor lookup (kinds.get? item.2.1.id) item.2.2
  { diagnosticIndex := item.1
    diagnosticId := sanitizeOutputText item.2.1.id
    status := verdict.status
    reason := verdict.reason
    visible := verdict.visible
    baselineEntryIndex := verdict.baselineEntryIndex }

def consumedBy (lookup : Lookup) (kinds : OrderedMap Text BaselineDiagnosticKind)
    (item : Nat × Diagnostic × BaselineEntry) : List Nat :=
  (verdictFor lookup (kinds.get? item.2.1.id) item.2.2).consumed.toList

def comparedItems (diagnostics : List Diagnostic) (currentEntries : List BaselineEntry) :
    List (Nat × Diagnostic × BaselineEntry) :=
  (diagnostics.zip currentEntries).mapIdx fun index pair => (index, pair)

theorem compareDiagnostics_eq (lookup : Lookup) (kinds : OrderedMap Text BaselineDiagnosticKind)
    (diagnostics : List Diagnostic) (currentEntries : List BaselineEntry) :
    compareDiagnostics lookup kinds diagnostics currentEntries =
      ⟨(comparedItems diagnostics currentEntries).flatMap (consumedBy lookup kinds),
        (comparedItems diagnostics currentEntries).map (reportOf lookup kinds)⟩ := by
  have fold : ∀ (items : List (Nat × Diagnostic × BaselineEntry)) (state : Comparing),
      items.foldl (compareDiagnostic lookup kinds) state =
        ⟨state.consumed ++ items.flatMap (consumedBy lookup kinds),
          state.comparisons ++ items.map (reportOf lookup kinds)⟩ := by
    intro items
    induction items with
    | nil =>
      intro state
      rw [flatMap_nil, map_nil, append_nil, append_nil]
      rfl
    | cons item rest ih =>
      intro state
      rw [foldl_cons, ih, flatMap_cons, map_cons, compareDiagnostic]
      simp only [append_assoc, singleton_append]
      rfl
  rw [compareDiagnostics]
  exact (fold _ _).trans (by simp only [nil_append]; rfl)

theorem comparedItems_getElem? {currentEntries : List BaselineEntry} {item : Nat × Diagnostic × BaselineEntry} :
    (comparedItems diagnostics currentEntries)[index]? = some item ↔
      item.1 = index ∧ diagnostics[index]? = some item.2.1 ∧
        currentEntries[index]? = some item.2.2 := by
  rw [comparedItems, getElem?_mapIdx, Option.map_eq_some_iff]
  constructor
  · rintro ⟨pair, zipped, rfl⟩
    obtain ⟨left, right⟩ := getElem?_zip_eq_some.mp zipped
    exact ⟨rfl, left, right⟩
  · rintro ⟨rfl, left, right⟩
    exact ⟨item.2, getElem?_zip_eq_some.mpr ⟨left, right⟩, rfl⟩

/-! ## Verdicts -/

/-- The status says that the entry named is consumed. -/
def Consumes (comparison : BaselineDiagnosticComparison) (index : Nat) : Prop :=
  (comparison.status = .matched ∨ comparison.status = .expired) ∧
    comparison.baselineEntryIndex = some index

/-- A verdict that consumes says so, and only a match is hidden. -/
structure Verdict.Sound (verdict : Verdict) : Prop where
  consumed_iff : ∀ index, verdict.consumed = some index ↔
    (verdict.status = .matched ∨ verdict.status = .expired) ∧
      verdict.baselineEntryIndex = some index
  hidden_iff : verdict.visible = false ↔ verdict.status = .matched
  named : verdict.status = .matched ∨ verdict.status = .expired →
    ∃ index, verdict.consumed = some index

theorem sound_shown {status : BaselineComparisonStatus} {reason : BaselineComparisonReason}
    {index : Option Nat} (notMatched : status ≠ .matched) (notExpired : status ≠ .expired) :
    (Verdict.shown status reason index).Sound where
  consumed_iff := by
    intro asked
    refine iff_of_false (fun same => by cases same) ?_
    rintro ⟨matched | expired, -⟩
    · exact notMatched matched
    · exact notExpired expired
  hidden_iff := iff_of_false (fun same => by cases same) notMatched
  named := fun either => (either.elim notMatched notExpired).elim

theorem sound_consume (lookup : Lookup) (candidate : IndexedEntry)
    (reason : BaselineComparisonReason) : (consume lookup candidate reason).Sound := by
  unfold consume
  cases expiredReason lookup.baseline candidate.entry lookup.now with
  | none => exact ⟨fun index => by simp, by simp, fun _ => ⟨_, rfl⟩⟩
  | some expiry => exact ⟨fun index => by simp, by simp, fun _ => ⟨_, rfl⟩⟩

theorem consumed_consume (lookup : Lookup) (candidate : IndexedEntry)
    (reason : BaselineComparisonReason) :
    (consume lookup candidate reason).consumed = some candidate.index := by
  unfold consume
  cases expiredReason lookup.baseline candidate.entry lookup.now <;> rfl

/-- How a lint diagnostic comes to consume a candidate. -/
inductive Found (lookup : Lookup) (current : BaselineEntry) (candidate : IndexedEntry) : Prop
  | exact (only : lookup.exactEntries.members (matchIdentity current) = [candidate])
      (alone : lookup.currentIdentities.count (matchIdentity current) = 1)
  | move (listed : candidate ∈ lookup.semanticEntries.members (semanticIdentity current))
      (alone : lookup.currentSemantics.count (semanticIdentity current) = 1)

/-- A verdict about a lint diagnostic: shown for a reason, or made by consuming a candidate. -/
inductive Judged (lookup : Lookup) (current : BaselineEntry) : Verdict → Prop
  | shown {status : BaselineComparisonStatus} {reason : BaselineComparisonReason}
      {index : Option Nat} (notMatched : status ≠ .matched) (notExpired : status ≠ .expired) :
      Judged lookup current (.shown status reason index)
  | consume {candidate : IndexedEntry} {reason : BaselineComparisonReason}
      (found : Found lookup current candidate) :
      Judged lookup current (DiagnosticBaseline.consume lookup candidate reason)

theorem judged_moveVerdict (lookup : Lookup) (current : BaselineEntry) :
    Judged lookup current (moveVerdict lookup current) := by
  unfold moveVerdict
  dsimp only
  by_cases declared : lookup.moveDeclarations.members
      (moveIdentity current.path current.ruleId current.semanticFingerprint) ≠ []
  · rw [if_pos declared]
    split
    next candidate _ eligible =>
      by_cases alone : lookup.currentSemantics.count (semanticIdentity current) = 1
      · rw [if_neg (not_not.mpr alone)]
        have listed := eligible ▸ mem_cons_self (a := candidate) (l := [])
        exact .consume (.move (mem_of_mem_filter listed) alone)
      · rw [if_pos alone]
        exact .shown (by decide) (by decide)
    next => exact .shown (by decide) (by decide)
  · rw [if_neg declared]
    exact .shown (by decide) (by decide)

theorem judged_lintVerdict (lookup : Lookup) (current : BaselineEntry) :
    Judged lookup current (lintVerdict lookup current) := by
  unfold lintVerdict
  cases lookup.globalReason with
  | some reason => exact .shown (by decide) (by decide)
  | none =>
    dsimp only
    split
    next =>
      unfold nearVerdict
      split
      next => exact .shown (by decide) (by decide)
      next => exact judged_moveVerdict lookup current
      next => exact .shown (by decide) (by decide)
    next candidate only =>
      split_ifs with alone
      · exact .consume (.exact only alone)
      · exact .shown (by decide) (by decide)
    next => exact .shown (by decide) (by decide)

theorem Judged.sound (judged : Judged lookup current verdict) : verdict.Sound := by
  cases judged with
  | shown notMatched notExpired => exact sound_shown notMatched notExpired
  | consume found => exact sound_consume _ _ _

theorem Judged.found
    (judged : Judged lookup current verdict) (consumed : verdict.consumed = some index) :
    ∃ candidate, candidate.index = index ∧ Found lookup current candidate := by
  cases judged with
  | shown => cases consumed
  | @consume candidate reason found =>
    rw [consumed_consume] at consumed
    exact ⟨candidate, Option.some.inj consumed, found⟩

theorem sound_verdictFor (lookup : Lookup) (kind : Option BaselineDiagnosticKind)
    (current : BaselineEntry) : (verdictFor lookup kind current).Sound := by
  unfold verdictFor
  split
  · exact (judged_lintVerdict lookup current).sound
  · exact sound_shown (by decide) (by decide)
  · exact sound_shown (by decide) (by decide)
  · exact sound_shown (by decide) (by decide)

theorem found_of_consumed {kind : Option BaselineDiagnosticKind}
    (consumed : (verdictFor lookup kind current).consumed = some index) :
    kind = some .lint ∧ ∃ candidate, candidate.index = index ∧ Found lookup current candidate := by
  unfold verdictFor at consumed
  split at consumed
  · exact ⟨rfl, (judged_lintVerdict lookup current).found consumed⟩
  · cases consumed
  · cases consumed
  · cases consumed

/-! ## No entry is consumed twice -/

theorem index_eq_of_count {α : Type} [BEq α] [LawfulBEq α] {list : List α} {value : α}
    (alone : list.count value = 1) {index other : Nat} (here : list[index]? = some value)
    (there : list[other]? = some value) : index = other := by
  have ordered : ∀ {first second : Nat}, first < second → list[first]? = some value →
      list[second]? = some value → False := by
    intro first second before left right
    obtain ⟨leftBound, leftValue⟩ := List.getElem?_eq_some_iff.mp left
    obtain ⟨rightBound, rightValue⟩ := List.getElem?_eq_some_iff.mp right
    have twice : Duplicate value list := duplicate_iff_exists_distinct_get.mpr
      ⟨⟨first, leftBound⟩, ⟨second, rightBound⟩, before, leftValue.symm, rightValue.symm⟩
    have many := (duplicate_iff_sublist.mp twice).count_le value
    rw [count_cons_self, count_cons_self] at many
    omega
  rcases Nat.lt_trichotomy index other with before | same | after
  · exact (ordered before here there).elim
  · exact same
  · exact (ordered after there here).elim

theorem mem_indexedEntries {baseline : BaselineOutput} {item : IndexedEntry} :
    item ∈ indexedEntries baseline ↔ baseline.entries[item.index]? = some item.entry := by
  unfold indexedEntries
  rw [mem_mapIdx]
  constructor
  · rintro ⟨index, bound, rfl⟩
    exact getElem?_eq_getElem bound
  · intro found
    obtain ⟨bound, same⟩ := List.getElem?_eq_some_iff.mp found
    exact ⟨item.index, bound, by rw [same]⟩

theorem indexes_indexedEntries (baseline : BaselineOutput) :
    (indexedEntries baseline).map (·.index) = range baseline.entries.length := by
  apply ext_getElem?
  intro index
  unfold indexedEntries
  rw [getElem?_map, getElem?_mapIdx, Option.map_map]
  by_cases bound : index < baseline.entries.length
  · rw [getElem?_eq_getElem bound, getElem?_range bound]
    rfl
  · rw [getElem?_eq_none (Nat.le_of_not_lt bound),
      getElem?_eq_none (by rw [length_range]; exact Nat.le_of_not_lt bound)]
    rfl

section Consumption

variable {input : CompareDiagnosticBaselineInput} {currentEntries : List BaselineEntry}
  {current currentOther : BaselineEntry} {candidate : IndexedEntry} {position other : Nat}

/-- A candidate has the semantic identity of the diagnostic that finds it. -/
theorem Found.semantic {current : BaselineEntry}
    (found : Found (makeLookup input currentEntries) current candidate) :
    candidate ∈ indexedEntries input.baseline ∧
      semanticIdentity candidate.entry = semanticIdentity current := by
  cases found with
  | exact only alone =>
    have listed : candidate ∈ (makeLookup input currentEntries).exactEntries.members
        (matchIdentity current) := only ▸ mem_cons_self
    rw [makeLookup, members_group, mem_filter, decide_eq_true_eq] at listed
    exact ⟨listed.1, semanticIdentity_eq_of_match listed.2⟩
  | move listed alone =>
    rw [makeLookup, members_group, mem_filter, decide_eq_true_eq] at listed
    exact listed

theorem index_eq_of_semantic {current : BaselineEntry} {currentOther : BaselineEntry}
    (alone : (makeLookup input currentEntries).currentSemantics.count
      (semanticIdentity current) = 1) (here : currentEntries[position]? = some current)
    (there : currentEntries[other]? = some currentOther)
    (same : semanticIdentity currentOther = semanticIdentity current) : position = other := by
  refine index_eq_of_count alone ?_ ?_
  · exact getElem?_map .. |>.trans (by rw [here]; rfl)
  · exact getElem?_map .. |>.trans (by rw [there]; exact congrArg some same)

/-- Two diagnostics that find the same entry are the same. -/
theorem eq_of_found (here : currentEntries[position]? = some current)
    (there : currentEntries[other]? = some currentOther)
    (found : Found (makeLookup input currentEntries) current candidate)
    (foundOther : Found (makeLookup input currentEntries) currentOther candidate) :
    position = other := by
  have same : semanticIdentity currentOther = semanticIdentity current :=
    foundOther.semantic.2.symm.trans found.semantic.2
  cases found with
  | move _ alone => exact index_eq_of_semantic alone here there same
  | exact only alone =>
    cases foundOther with
    | move _ aloneOther => exact (index_eq_of_semantic aloneOther there here same.symm).symm
    | exact onlyOther _ =>
      have identity : ∀ {entry : BaselineEntry}, (makeLookup input
          currentEntries).exactEntries.members (matchIdentity entry) = [candidate] →
          matchIdentity candidate.entry = matchIdentity entry := by
        intro entry single
        have listed : candidate ∈ (makeLookup input currentEntries).exactEntries.members
            (matchIdentity entry) := single ▸ mem_cons_self
        rw [makeLookup, members_group, mem_filter, decide_eq_true_eq] at listed
        exact listed.2
      refine index_eq_of_count alone ?_ ?_
      · exact getElem?_map .. |>.trans (by rw [here]; rfl)
      · refine getElem?_map .. |>.trans ?_
        rw [there]
        exact congrArg some ((identity onlyOther).symm.trans (identity only))

theorem eq_of_consumed {position other index : Nat} {kind kindOther : Option BaselineDiagnosticKind}
    (here : currentEntries[position]? = some current)
    (there : currentEntries[other]? = some currentOther)
    (consumed : (verdictFor (makeLookup input currentEntries) kind current).consumed = some index)
    (consumedOther : (verdictFor (makeLookup input currentEntries) kindOther
      currentOther).consumed = some index) : position = other := by
  obtain ⟨-, candidate, rfl, found⟩ := found_of_consumed consumed
  obtain ⟨-, candidateOther, sameIndex, foundOther⟩ := found_of_consumed consumedOther
  have same : candidateOther = candidate := by
    have left := mem_indexedEntries.mp foundOther.semantic.1
    have right := mem_indexedEntries.mp found.semantic.1
    rw [sameIndex, right] at left
    rcases candidate with ⟨entry, place⟩
    rcases candidateOther with ⟨entryOther, placeOther⟩
    cases left
    cases sameIndex
    rfl
  subst same
  exact eq_of_found here there found foundOther

end Consumption

variable {α β : Type} {checks : BaselineChecks}

/-! ## Completed runs -/

/-- What the validation shared by both operations has established. -/
structure Common (checks : BaselineChecks) (diagnostics : DiagnosticBundle)
    (sources : List SourceDocument) (classifications : List BaselineDiagnosticClassification)
    (engineVersion : Text) (profileVersions : ProfileVersions)
    (kinds : OrderedMap Text BaselineDiagnosticKind) : Prop where
  bundle : validateDiagnosticBundle checks.records sources diagnostics = true
  classified : classificationMap diagnostics.diagnostics classifications = some kinds
  engine : version.matchesAll engineVersion = true
  profiles : profilesAreWellFormed checks profileVersions = true

theorem validateCommon_eq_ok {diagnostics : DiagnosticBundle} {sources : List SourceDocument}
    {classifications : List BaselineDiagnosticClassification} {engineVersion : Text}
    {profileVersions : ProfileVersions} {kinds : OrderedMap Text BaselineDiagnosticKind} :
    validateCommon checks diagnostics sources classifications engineVersion profileVersions =
        .ok kinds ↔
      Common checks diagnostics sources classifications engineVersion profileVersions kinds := by
  unfold validateCommon
  rw [check_bind_eq_ok, refuseIf_eq_ok, Bool.not_eq_false]
  constructor
  · rintro ⟨bundle, run⟩
    cases classified : classificationMap diagnostics.diagnostics classifications with
    | none =>
      rw [classified] at run
      cases run
    | some found =>
      rw [classified] at run
      simp only [check_bind_eq_ok, refuseIf_eq_ok, Bool.not_eq_false, pure, Except.pure,
        Except.ok.injEq] at run
      obtain ⟨engine, profiles, rfl⟩ := run
      exact ⟨bundle, classified, engine, profiles⟩
  · intro common
    refine ⟨common.bundle, ?_⟩
    rw [common.classified]
    simp only [check_bind_eq_ok, refuseIf_eq_ok, Bool.not_eq_false, pure, Except.pure]
    exact ⟨common.engine, common.profiles, trivial⟩

theorem compareDiagnosticBaseline_eq_ok
    {input : CompareDiagnosticBaselineInput} {result : DiagnosticBaselineComparison} :
    compareDiagnosticBaseline checks input = .ok result ↔
      validateBaselineOutput checks.output input.baseline = true ∧
        ∃ kinds, Common checks input.diagnostics input.sources input.classifications
            input.engineVersion input.profileVersions kinds ∧
          isCanonicalDateTime input.now = true ∧ validateMoves input.pathMoves = true ∧
          ∃ currentEntries, (input.diagnostics.diagnostics.mapM fun diagnostic =>
              entryFromDiagnostic diagnostic input.now none) = some currentEntries ∧
            comparisonOf input kinds currentEntries = result := by
  simp only [compareDiagnosticBaseline, bind_eq_ok, refuseIf_eq_ok, exists_const,
    Bool.not_eq_false, validateCommon_eq_ok]
  cases entered : input.diagnostics.diagnostics.mapM fun diagnostic =>
      entryFromDiagnostic diagnostic input.now none with
  | none =>
    simp
  | some currentEntries =>
    simp [pure, Except.pure]

theorem mapM_some_getElem? {f : α → Option β} {as : List α} {bs : List β}
    (mapped : as.mapM f = some bs) {index : Nat} {a : α} (here : as[index]? = some a) :
    ∃ b, bs[index]? = some b ∧ f a = some b := by
  have each := mapM_eq_some.mp mapped
  clear mapped
  induction each generalizing index with
  | nil => cases here
  | cons made _ ih =>
    cases index with
    | zero =>
      cases here
      exact ⟨_, rfl, made⟩
    | succ index => exact ih here

/-! ## Accounts -/

/-- Every diagnostic has one status, and every entry is consumed once or stale. -/
structure Accounts (input : CompareDiagnosticBaselineInput)
    (result : DiagnosticBaselineComparison) : Prop where
  statuses : result.diagnostics.map (·.diagnosticIndex) =
    range input.diagnostics.diagnostics.length
  visible : result.visibleDiagnosticIndexes =
    (result.diagnostics.filter (·.visible)).map (·.diagnosticIndex)
  hidden : ∀ comparison ∈ result.diagnostics,
    comparison.visible = false → comparison.status = .matched
  lint : ∀ comparison ∈ result.diagnostics, comparison.visible = false →
    ∃ classification, input.classifications[comparison.diagnosticIndex]? = some classification ∧
      classification.kind = .lint
  consumes : ∀ comparison ∈ result.diagnostics,
    comparison.status = .matched ∨ comparison.status = .expired →
      ∃ index < input.baseline.entries.length, Consumes comparison index
  once : ∀ comparison ∈ result.diagnostics, ∀ other ∈ result.diagnostics, ∀ index,
    Consumes comparison index → Consumes other index →
      comparison.diagnosticIndex = other.diagnosticIndex
  stale : (result.staleEntries.map (·.baselineEntryIndex)).Nodup
  consumedOrStale : ∀ index < input.baseline.entries.length,
    (∃ comparison ∈ result.diagnostics, Consumes comparison index) ↔
      ¬ ∃ entry ∈ result.staleEntries, entry.baselineEntryIndex = index

section Accounts

variable {input : CompareDiagnosticBaselineInput} {currentEntries : List BaselineEntry}
  {kinds : OrderedMap Text BaselineDiagnosticKind}

theorem comparisonOf_diagnostics : (comparisonOf input kinds currentEntries).diagnostics =
    (comparedItems input.diagnostics.diagnostics currentEntries).map
      (reportOf (makeLookup input currentEntries) kinds) := by
  unfold comparisonOf
  rw [compareDiagnostics_eq]

theorem mem_comparisonOf {comparison : BaselineDiagnosticComparison} :
    comparison ∈ (comparisonOf input kinds currentEntries).diagnostics ↔
      ∃ index diagnostic current, input.diagnostics.diagnostics[index]? = some diagnostic ∧
        currentEntries[index]? = some current ∧
        reportOf (makeLookup input currentEntries) kinds (index, diagnostic, current) =
          comparison := by
  rw [comparisonOf_diagnostics, mem_map]
  constructor
  · rintro ⟨item, member, rfl⟩
    obtain ⟨index, found⟩ := mem_iff_getElem?.mp member
    obtain ⟨rfl, here, current⟩ := comparedItems_getElem?.mp found
    exact ⟨item.1, item.2.1, item.2.2, here, current, rfl⟩
  · rintro ⟨index, diagnostic, current, here, entry, rfl⟩
    exact ⟨_, mem_of_getElem? (comparedItems_getElem?.mpr ⟨rfl, here, entry⟩), rfl⟩

theorem consumes_reportOf {lookup : Lookup} {item : Nat × Diagnostic × BaselineEntry}
    {index : Nat} : Consumes (reportOf lookup kinds item) index ↔
      (verdictFor lookup (kinds.get? item.2.1.id) item.2.2).consumed = some index :=
  ((sound_verdictFor lookup _ _).consumed_iff index).symm

theorem mem_staleEntries {entry : BaselineStaleEntry} :
    entry ∈ (comparisonOf input kinds currentEntries).staleEntries ↔
      ∃ item ∈ indexedEntries input.baseline,
        (¬ ∃ comparison ∈ (comparisonOf input kinds currentEntries).diagnostics,
          Consumes comparison item.index) ∧
        staleEntry input.baseline input.now item = entry := by
  have consumed : ∀ index, index ∈ (compareDiagnostics (makeLookup input currentEntries) kinds
      input.diagnostics.diagnostics currentEntries).consumed ↔
      ∃ comparison ∈ (comparisonOf input kinds currentEntries).diagnostics,
        Consumes comparison index := by
    intro index
    rw [compareDiagnostics_eq, comparisonOf_diagnostics]
    simp [consumes_reportOf, consumedBy]
  simp only [comparisonOf, mem_map, mem_filter, decide_eq_true_eq, and_assoc]
  simp only [consumed]
  exact Iff.rfl

theorem statuses_comparisonOf
    (entered : currentEntries.length = input.diagnostics.diagnostics.length) :
    (comparisonOf input kinds currentEntries).diagnostics.map (·.diagnosticIndex) =
      range input.diagnostics.diagnostics.length := by
  rw [comparisonOf_diagnostics, map_map, comparedItems]
  apply ext_getElem
  · rw [length_map, length_mapIdx, length_zip, entered, Nat.min_self, length_range]
  · intro index left right
    rw [getElem_map, getElem_mapIdx, getElem_range]
    rfl

theorem indexes_staleEntries : ((comparisonOf input kinds currentEntries).staleEntries.map
    (·.baselineEntryIndex)).Nodup := by
  have listed : ((indexedEntries input.baseline).map (·.index)).Nodup := by
    rw [indexes_indexedEntries]
    exact nodup_range
  unfold comparisonOf
  dsimp only
  rw [map_map]
  exact (filter_sublist.map _).nodup listed

/-- A diagnostic that is hidden or consumes is classified as lint. -/
theorem lint_of_consumed (classified : classificationMap input.diagnostics.diagnostics
    input.classifications = some kinds) {index entryIndex : Nat} {diagnostic : Diagnostic}
    {current : BaselineEntry} (here : input.diagnostics.diagnostics[index]? = some diagnostic)
    (consumed : (verdictFor (makeLookup input currentEntries) (kinds.get? diagnostic.id)
      current).consumed = some entryIndex) :
    ∃ classification, input.classifications[index]? = some classification ∧
      classification.kind = .lint := by
  obtain ⟨classification, place, kind⟩ := kind_of_classificationMap classified here
  have lint := (found_of_consumed consumed).1
  rw [kind, Option.some.injEq] at lint
  exact ⟨classification, place, lint⟩

end Accounts

/-- A completed comparison accounts for every diagnostic once, and every entry is consumed by one
diagnostic or stale. -/
theorem accounts_compareDiagnosticBaseline {checks : BaselineChecks}
    {input : CompareDiagnosticBaselineInput} {result : DiagnosticBaselineComparison}
    (compared : compareDiagnosticBaseline checks input = .ok result) : Accounts input result := by
  obtain ⟨-, kinds, common, -, -, currentEntries, entered, rfl⟩ :=
    compareDiagnosticBaseline_eq_ok.mp compared
  have consumedOf : ∀ {index : Nat} {diagnostic : Diagnostic} {current : BaselineEntry},
      (reportOf (makeLookup input currentEntries) kinds (index, diagnostic, current)).status =
          .matched ∨
        (reportOf (makeLookup input currentEntries) kinds (index, diagnostic, current)).status =
          .expired →
      ∃ entryIndex, (verdictFor (makeLookup input currentEntries) (kinds.get? diagnostic.id)
        current).consumed = some entryIndex := fun either =>
    (sound_verdictFor _ _ _).named either
  refine ⟨statuses_comparisonOf (mapM_eq_some.mp entered).length_eq.symm, rfl, ?_, ?_, ?_, ?_,
    indexes_staleEntries, ?_⟩
  case refine_1 =>
    intro comparison member hidden
    obtain ⟨index, diagnostic, current, -, -, rfl⟩ := mem_comparisonOf.mp member
    exact (sound_verdictFor _ _ _).hidden_iff.mp hidden
  case refine_2 =>
    intro comparison member hidden
    obtain ⟨index, diagnostic, current, here, -, rfl⟩ := mem_comparisonOf.mp member
    have matched := (sound_verdictFor _ _ _).hidden_iff.mp hidden
    obtain ⟨entryIndex, consumed⟩ := consumedOf (.inl matched)
    exact lint_of_consumed common.classified here consumed
  case refine_3 =>
    intro comparison member either
    obtain ⟨index, diagnostic, current, -, -, rfl⟩ := mem_comparisonOf.mp member
    obtain ⟨entryIndex, consumed⟩ := consumedOf either
    obtain ⟨-, candidate, rfl, found⟩ := found_of_consumed consumed
    obtain ⟨bound, -⟩ := List.getElem?_eq_some_iff.mp (mem_indexedEntries.mp found.semantic.1)
    exact ⟨candidate.index, bound, consumes_reportOf.mpr consumed⟩
  case refine_4 =>
    intro comparison member other otherMember entryIndex consumes consumesOther
    obtain ⟨index, diagnostic, current, -, here, rfl⟩ := mem_comparisonOf.mp member
    obtain ⟨indexOther, diagnosticOther, currentOther, -, there, rfl⟩ :=
      mem_comparisonOf.mp otherMember
    change index = indexOther
    have consumed := consumes_reportOf.mp consumes
    have consumedOther := consumes_reportOf.mp consumesOther
    exact eq_of_consumed here there consumed consumedOther
  case refine_5 =>
    intro index bound
    constructor
    · rintro consumed ⟨entry, stale, same⟩
      obtain ⟨item, -, unconsumed, rfl⟩ := mem_staleEntries.mp stale
      cases same
      exact unconsumed consumed
    · intro notStale
      by_contra unconsumed
      exact notStale ⟨_, mem_staleEntries.mpr ⟨⟨input.baseline.entries[index], index⟩,
        mem_indexedEntries.mpr (getElem?_eq_getElem bound), unconsumed, rfl⟩, rfl⟩

/-! ## A run -/

def everyCheck : BaselineChecks :=
  ⟨⟨fun _ _ => true, fun _ _ => true, fun _ _ => true, fun _ _ => true⟩, fun _ => true,
    fun _ => true⟩

/-- A diagnostic of a rule about the first unit of the file at a path. -/
def diagnosticAt (id ruleId path : String) : Diagnostic :=
  let basis : DiagnosticFingerprintBasis := ⟨⟨js "anchor", []⟩, ⟨[⟨js "k", js "v"⟩], []⟩⟩
  { id := js id
    ruleId := js ruleId
    ruleVersion := js "1.0.0"
    severity := .warning
    message := js "m"
    primary := ⟨js "s", js path, js "d", ⟨js "s", ⟨0, 0, 0, 0⟩, ⟨1, 1, 0, 1⟩⟩⟩
    related := []
    suggestion := none
    fingerprintBasis := basis
    fingerprints :=
      ⟨⟨DiagnosticFingerprint.pathFingerprintMethod,
          (DiagnosticFingerprint.computePathFingerprint (js ruleId) (js "1.0.0") (js path)
            basis.path).getD []⟩,
        ⟨DiagnosticFingerprint.semanticFingerprintMethod,
          (DiagnosticFingerprint.computeSemanticFingerprint (js ruleId) (js "1.0.0")
            basis.semantic).getD []⟩⟩ }

def profiles : ProfileVersions := empty.set (js "p") ⟨js "1.0.0", some (js "v"), [], []⟩

/-- Lint diagnostics compared with a baseline of others. -/
def comparisonOver (baseline diagnostics : List Diagnostic) (pathMoves : List BaselinePathMove) :
    CompareDiagnosticBaselineInput where
  baseline :=
    { engineVersion := js "1.0.0"
      createdAt := js "2026-01-01T00:00:00.000Z"
      expiresAt := none
      sourceRevision := replicate 64 0x30
      profileVersions := profiles
      entries := baseline.filterMap fun diagnostic =>
        entryFromDiagnostic diagnostic (js "2026-01-01T00:00:00.000Z") none }
  diagnostics := ⟨diagnostics, []⟩
  sources := []
  classifications := diagnostics.map fun diagnostic => ⟨diagnostic.id, .lint⟩
  engineVersion := js "1.0.0"
  profileVersions := profiles
  now := js "2026-01-02T00:00:00.000Z"
  pathMoves := pathMoves

/-- The file of a diagnostic of `ACL102` was renamed. -/
def moveOf (source target : String) : BaselinePathMove :=
  ⟨js source, js target, js "ACL102", (diagnosticAt "" "ACL102" target).fingerprints.semantic.value⟩

/-- Two files were renamed; a move is declared for one of them, and one for no file. -/
def movedInput : CompareDiagnosticBaselineInput :=
  comparisonOver [diagnosticAt "d1" "ACL101" "a", diagnosticAt "d2" "ACL102" "b"]
    [diagnosticAt "d1" "ACL101" "z", diagnosticAt "d2" "ACL102" "c"] [moveOf "b" "c", moveOf "x" "y"]

theorem compared_movedInput : (compareDiagnosticBaseline everyCheck movedInput).map (fun result =>
      (result.diagnostics.map (·.reason), result.staleEntries.map (·.baselineEntryIndex))) =
        .ok ([.pathMoveUnproven, .pathMove], [0]) := by
  decide +kernel

/-- Of two entries, one is found at its new path, and one is stale. -/
theorem accounts_compareDiagnosticBaseline_moved :
    ∃ result, compareDiagnosticBaseline everyCheck movedInput = .ok result ∧
      result.diagnostics.map (·.reason) = [.pathMoveUnproven, .pathMove] ∧
      result.staleEntries.map (·.baselineEntryIndex) = [0] ∧ Accounts movedInput result := by
  obtain ⟨result, compared, facts⟩ := eq_ok_of_map compared_movedInput
  obtain ⟨reasons, stale⟩ := Prod.mk.inj facts
  exact ⟨result, compared, reasons, stale, accounts_compareDiagnosticBaseline compared⟩

end AgentContextLint.DiagnosticBaseline
