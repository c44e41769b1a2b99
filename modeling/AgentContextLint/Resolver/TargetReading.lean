import AgentContextLint.Resolver.TargetSampler

/-!
# What the target sampler accepts

One inversion for each reader of `TargetSampler`: what it takes and what it gives. From these,
inputs that differ in the order of their lists are read alike (`normalizeInput_reordered`).
-/

namespace AgentContextLint.TargetSampler

open Utf16 Sorting Metered List
open RepositoryPath (isRepositoryRelativePath repositoryRoot)
open JsValue (get keys text?)

variable {limits : TargetSamplerLimits} {clock : TargetSamplerClock} {value : JsValue}
  {observed : List TargetActivationObservation} {toLowerCase : Text → Text}
  {state : ObservationState} {paths : List RelativePath} {roots : List RelativePath}
  {label : String} {index : Nat} {code : TargetSamplerErrorCode} {items : List JsValue}
  {observation : TargetActivationObservation} {raw : List JsValue} {value value' : JsValue}
  {observed observed' : List TargetActivationObservation} {sorted : List RelativePath}
  {place : Nat → SamplerCheckpoint} {workspace : NormalizedWorkspace} {maximum : Nat}
  {message : String} {out : Unit} {text : Text} {α β : Type}

theorem failIf_eq_ok {condition : Prop} [Decidable condition] : failIf condition code message = .ok out ↔ ¬ condition :=
  refuseIf_eq_ok

/-! ## Values -/

/-- A record with the expected fields. -/
structure IsRecord (expected : List String) (value : JsValue) (fields : List (Text × JsValue)) :
    Prop where
  eq : value = .object fields
  size : fields.length = expected.length
  known : ∀ key ∈ keys fields, key ∈ expected.map js
  data : ∀ key ∈ expected, isAccessor (get fields (js key)) = false

theorem record_eq_ok {expected : List String} {fields : List (Text × JsValue)} :
    record value expected label = .ok fields ↔ IsRecord expected value fields := by
  constructor
  · intro run
    unfold record at run
    split at run
    · rename_i own
      obtain ⟨shape, run⟩ := check_bind_eq_ok.mp run
      rw [failIf_eq_ok, not_or, not_not, not_not] at shape
      split at run
      · cases run
      · rename_i none
        cases run
        refine ⟨rfl, shape.1, shape.2, fun key member => ?_⟩
        exact Bool.eq_false_iff.mpr (find?_eq_none.mp none key member)
    all_goals cases run
  · rintro ⟨rfl, size, known, data⟩
    refine check_bind_eq_ok.mpr ⟨failIf_eq_ok.mpr ?_, ?_⟩
    · rw [not_or, not_not, not_not]
      exact ⟨size, known⟩
    · have none : expected.find? (fun key => isAccessor (get fields (js key))) = none :=
        find?_eq_none.mpr fun key member => Bool.eq_false_iff.mp (data key member)
      rw [none]
      rfl

/-- A dense array within its limit. -/
structure IsDense (maximum : Nat) (value : JsValue) (items : List JsValue) : Prop where
  eq : value = .array items
  within : items.length ≤ maximum
  data : ∀ item ∈ items, isAccessor item = false

theorem denseArray_eq_ok :
    denseArray value maximum label = .ok items ↔ IsDense maximum value items := by
  constructor
  · intro run
    unfold denseArray at run
    split at run
    · obtain ⟨within, run⟩ := check_bind_eq_ok.mp run
      obtain ⟨data, run⟩ := check_bind_eq_ok.mp run
      cases run
      refine ⟨rfl, Nat.le_of_not_lt (failIf_eq_ok.mp within), fun item member => ?_⟩
      have all := failIf_eq_ok.mp data
      rw [any_eq_true] at all
      exact Bool.eq_false_iff.mpr fun accessor => all ⟨item, member, accessor⟩
    all_goals cases run
  · rintro ⟨rfl, within, data⟩
    refine check_bind_eq_ok.mpr ⟨failIf_eq_ok.mpr (Nat.not_lt.mpr within), ?_⟩
    refine check_bind_eq_ok.mpr ⟨failIf_eq_ok.mpr fun any => ?_, rfl⟩
    obtain ⟨item, member, accessor⟩ := any_eq_true.mp any
    exact Bool.false_ne_true ((data item member).symm.trans accessor)

theorem textWhere_eq_ok {accepts : Text → Bool} : textWhere accepts value code message = .ok text ↔
      value = .string text ∧ accepts text = true := by
  unfold textWhere
  cases value with
  | string own =>
    cases accepted : accepts own with
    | true => simp [text?, accepted]; rintro rfl; exact accepted
    | false => simp [text?, accepted, fail]; rintro rfl; exact accepted
  | _ => simp [text?, fail]

/-- A reader that looks at the index for the time only reads member by member. -/
theorem mapEntries_eq_ok_due {α : Type} {f : Nat → JsValue → Sampled α} {due : Nat → Prop}
    {reads : JsValue → α → Prop}
    (each : ∀ index value out, f index value = .ok out ↔ due index ∧ reads value out) {outs : List α} :
    mapEntries f items = .ok outs ↔
      (∀ index < items.length, due index) ∧ Forall₂ reads items outs := by
  have from_ : ∀ start, Forall₂ (fun item out => f item.2 item.1 = .ok out)
      (items.zipIdx start) outs ↔
        (∀ index < items.length, due (start + index)) ∧ Forall₂ reads items outs := by
    induction items generalizing outs with
    | nil =>
      intro start
      rw [zipIdx_nil, forall₂_nil_left_iff, forall₂_nil_left_iff, length_nil]
      exact ⟨fun nil => ⟨fun _ below => absurd below (Nat.not_lt_zero _), nil⟩, And.right⟩
    | cons item items ih =>
      intro start
      rw [zipIdx_cons, forall₂_cons_left_iff, forall₂_cons_left_iff]
      simp only [ih, length_cons]
      constructor
      · rintro ⟨out, others, run, ⟨later, all⟩, rfl⟩
        obtain ⟨now, own⟩ := (each _ _ _).mp run
        refine ⟨fun index below => ?_, out, others, own, all, rfl⟩
        cases index with
        | zero => exact now
        | succ index =>
          have due := later index (by omega)
          rwa [Nat.add_right_comm] at due
      · rintro ⟨all, out, others, own, rest, rfl⟩
        have now := all 0 (Nat.zero_lt_succ _)
        refine ⟨out, others, (each _ _ _).mpr ⟨now, own⟩, ⟨fun index below => ?_, rest⟩, rfl⟩
        rw [Nat.add_right_comm]
        exact all (index + 1) (by omega)
  rw [mapEntries, mapM_eq_ok, from_ 0]
  simp only [Nat.zero_add]

theorem mapEntries_eq_ok {α : Type} {f : Nat → JsValue → Sampled α} {reads : JsValue → α → Prop}
    (each : ∀ index value out, f index value = .ok out ↔ reads value out)
    {outs : List α} : mapEntries f items = .ok outs ↔ Forall₂ reads items outs := by
  have always : ∀ index value out, f index value = .ok out ↔ True ∧ reads value out :=
    fun index value out => (each index value out).trans (iff_of_eq (true_and _)).symm
  exact (mapEntries_eq_ok_due always).trans ⟨And.right, fun all => ⟨fun _ _ => trivial, all⟩⟩

/-- Members read in another order are the same, in another order. -/
theorem forall₂_perm {reads : α → β → Prop} {items items' : List α} {outs : List β}
    (all : Forall₂ reads items outs) (perm : items.Perm items') :
    ∃ outs', Forall₂ reads items' outs' ∧ outs'.Perm outs :=
  perm_comp_forall₂ perm.symm all

theorem exists_right_of_forall₂ {reads : α → β → Prop} {items : List α} {outs : List β}
    (all : Forall₂ reads items outs) {out : β} (member : out ∈ outs) :
    ∃ item ∈ items, reads item out := by
  induction all with
  | nil => cases member
  | cons own _ ih =>
    obtain rfl | later := mem_cons.mp member
    · exact ⟨_, mem_cons_self, own⟩
    · obtain ⟨item, inRest, reads⟩ := ih later
      exact ⟨item, mem_cons_of_mem _ inRest, reads⟩

/-! ## Time -/

/-- There is time left wherever a loop over so many entries reads the clock. -/
def InTime (clock : TargetSamplerClock) (place : Nat → SamplerCheckpoint) (first count : Nat) : Prop :=
  ∀ index, first ≤ index → index < first + count → index % 1024 = 0 →
    clock.reading (place index) = .inTime

theorem readClock_eq_ok {reading : ClockReading} : readClock reading code message = .ok out ↔ reading = .inTime := by
  cases reading <;> simp [readClock, fail]

theorem checkDeadlineAt_eq_ok : checkDeadlineAt clock place index = .ok out ↔
      (index % 1024 = 0 → clock.reading (place index) = .inTime) := by
  unfold checkDeadlineAt checkDeadline
  split_ifs with due
  · exact readClock_eq_ok.trans ⟨fun inTime _ => inTime, fun inTime => inTime due⟩
  · exact ⟨fun _ now => absurd now due, fun _ => rfl⟩

theorem inTime_zero (clock : TargetSamplerClock) (place : Nat → SamplerCheckpoint) (first : Nat) :
    InTime clock place first 0 := fun index from_ below => by omega

theorem inTime_succ {first count : Nat} : InTime clock place first (count + 1) ↔
      (first % 1024 = 0 → clock.reading (place first) = .inTime) ∧
        InTime clock place (first + 1) count := by
  constructor
  · intro all
    exact ⟨all first (Nat.le_refl _) (by omega), fun index from_ below =>
      all index (by omega) (by omega)⟩
  · rintro ⟨now, later⟩ index from_ below
    obtain rfl | behind := Nat.eq_or_lt_of_le from_
    · exact now
    · exact later index behind (by omega)

/-! ## Paths -/

def ReadsPath (value : JsValue) (path : RelativePath) : Prop :=
  value = .string path ∧ isFilePath path = true

theorem pathValue_eq_ok {path : RelativePath} :
    pathValue value label = .ok path ↔ ReadsPath value path := textWhere_eq_ok

def totalBytes (paths : List RelativePath) : Nat := (paths.map Utf8.byteLength).sum

theorem readPathsFrom_eq_ok {maximum index bytes : Nat} (within : bytes ≤ maximum) :
    readPathsFrom clock maximum index bytes raw = .ok paths ↔
      Forall₂ ReadsPath raw paths ∧ InTime clock .path index raw.length ∧
        bytes + totalBytes paths ≤ maximum := by
  induction raw generalizing index bytes paths with
  | nil =>
    rw [readPathsFrom, forall₂_nil_left_iff]
    constructor
    · rintro ⟨⟩
      exact ⟨rfl, inTime_zero _ _ _, by simpa [totalBytes] using within⟩
    · rintro ⟨rfl, -, -⟩
      rfl
  | cons value raw ih =>
    rw [readPathsFrom, check_bind_eq_ok, checkDeadlineAt_eq_ok, bind_eq_ok, length_cons,
      inTime_succ, forall₂_cons_left_iff]
    simp only [pathValue_eq_ok, bind_eq_ok, failIf_eq_ok, exists_const, Nat.not_lt, pure, Except.pure,
      Except.ok.injEq]
    constructor
    · rintro ⟨now, path, reads, small, others, rest, rfl⟩
      obtain ⟨all, later, total⟩ := (ih small).mp rest
      refine ⟨⟨path, others, reads, all, rfl⟩, ⟨now, later⟩, ?_⟩
      rw [totalBytes, map_cons, sum_cons, ← Nat.add_assoc]
      exact total
    · rintro ⟨⟨path, others, reads, all, rfl⟩, ⟨now, later⟩, total⟩
      rw [totalBytes, map_cons, sum_cons, ← Nat.add_assoc] at total
      have small : bytes + Utf8.byteLength path ≤ maximum := by omega
      exact ⟨now, path, reads, small, others, (ih small).mpr ⟨all, later, total⟩, rfl⟩

/-- What `readPaths` takes, in the order of the input. -/
structure PathsRead (clock : TargetSamplerClock) (limits : TargetSamplerLimits) (value : JsValue)
    (paths : List RelativePath) : Prop where
  dense : ∃ raw, IsDense limits.maximumPaths value raw ∧ Forall₂ ReadsPath raw paths
  inTime : InTime clock .path 0 paths.length
  bytes : totalBytes paths ≤ limits.maximumPathTextBytes
  nodup : paths.Nodup

theorem readPaths_eq_ok : readPaths clock limits value = .ok sorted ↔
      ∃ paths, PathsRead clock limits value paths ∧ sorted = sortBy compareUnits paths := by
  unfold readPaths
  simp only [bind_eq_ok, denseArray_eq_ok, failIf_eq_ok, exists_const, not_not, pure, Except.pure,
    Except.ok.injEq, readPathsFrom_eq_ok (Nat.zero_le _)]
  constructor
  · rintro ⟨raw, dense, paths, ⟨all, inTime, bytes⟩, nodup, rfl⟩
    rw [Nat.zero_add] at bytes
    rw [all.length_eq] at inTime
    exact ⟨paths, ⟨⟨raw, dense, all⟩, inTime, bytes, nodup⟩, rfl⟩
  · rintro ⟨paths, ⟨⟨raw, dense, all⟩, inTime, bytes, nodup⟩, rfl⟩
    rw [← all.length_eq] at inTime
    exact ⟨raw, dense, paths, ⟨all, inTime, by rwa [Nat.zero_add]⟩, nodup, rfl⟩

/-- What `readCriticalPaths` takes, in the order of the input. -/
structure CriticalRead (limits : TargetSamplerLimits) (value : JsValue)
    (paths : List RelativePath) : Prop where
  dense : ∃ raw, IsDense limits.maximumCriticalPaths value raw ∧ Forall₂ ReadsPath raw paths
  nodup : paths.Nodup

theorem readCriticalPaths_eq_ok : readCriticalPaths limits value = .ok sorted ↔
      ∃ paths, CriticalRead limits value paths ∧ sorted = sortBy compareUnits paths := by
  have each : ∀ index value path, pathValue value (indexed "criticalPaths" index) = .ok path ↔
      ReadsPath value path := fun _ _ _ => pathValue_eq_ok
  unfold readCriticalPaths
  simp only [bind_eq_ok, denseArray_eq_ok, failIf_eq_ok, exists_const, not_not, pure, Except.pure,
    Except.ok.injEq, mapEntries_eq_ok each]
  constructor
  · rintro ⟨raw, dense, paths, all, nodup, rfl⟩
    exact ⟨paths, ⟨⟨raw, dense, all⟩, nodup⟩, rfl⟩
  · rintro ⟨paths, ⟨⟨raw, dense, all⟩, nodup⟩, rfl⟩
    exact ⟨raw, dense, paths, all, nodup, rfl⟩

/-! ## Workspaces -/

/-- A workspace boundary with its root. -/
structure ReadsBoundary (value : JsValue) (root : RelativePath) : Prop where
  shape : ∃ item, IsRecord ["evidencePath", "family", "kind", "languages", "root"] value item ∧
    (∃ path, ReadsPath (get item (js "evidencePath")) path) ∧
    (∃ family, get item (js "family") = .string family ∧ family ∈ workspaceFamilies) ∧
    (∃ kind, get item (js "kind") = .string kind ∧
      kind ∈ [js "project", js "source", js "workspace"]) ∧
    (∃ raw languages, IsDense 16 (get item (js "languages")) raw ∧
      Forall₂ (fun value language => value = .string language ∧ language ∈ workspaceLanguages)
        raw languages) ∧
    get item (js "root") = .string root
  root : isRootPath root = true

theorem boundedText_eq_ok : boundedText value label maximum = .ok text ↔
      value = .string text ∧ text ≠ [] ∧ text.length ≤ maximum := by
  rw [boundedText, textWhere_eq_ok, Bool.and_eq_true, bne_iff_ne, decide_eq_true_iff]

theorem family_bounded : ∀ family ∈ workspaceFamilies, family ≠ [] ∧ family.length ≤ 512 := by
  decide

theorem readBoundary_eq_ok {root : RelativePath} : readBoundary clock index value = .ok root ↔
      (index % 1024 = 0 → clock.reading (.boundary index) = .inTime) ∧ ReadsBoundary value root := by
  have each : ∀ label index value language, textWhere workspaceLanguages.contains value
      .invalidInput (indexed (label ++ ".languages") index ++ " is invalid") = .ok language ↔
        value = .string language ∧ language ∈ workspaceLanguages := fun _ _ _ _ =>
    textWhere_eq_ok.trans (and_congr_right' contains_iff_mem)
  unfold readBoundary rootValue
  simp only [bind_eq_ok, exists_const, checkDeadlineAt_eq_ok, record_eq_ok, pathValue_eq_ok,
    boundedText_eq_ok, failIf_eq_ok, not_not, textWhere_eq_ok, contains_iff_mem,
    denseArray_eq_ok, mapEntries_eq_ok (each _)]
  constructor
  · rintro ⟨now, item, shape, path, evidence, family, ⟨isFamily, -⟩, known, kind, isKind, raw, dense,
      languages, all, isRoot, ok⟩
    exact ⟨now, ⟨item, shape, ⟨path, evidence⟩, ⟨family, isFamily, known⟩, ⟨kind, isKind⟩,
      ⟨raw, languages, dense, all⟩, isRoot⟩, ok⟩
  · rintro ⟨now, ⟨item, shape, ⟨path, evidence⟩, ⟨family, isFamily, known⟩, ⟨kind, isKind⟩,
      ⟨raw, languages, dense, all⟩, isRoot⟩, ok⟩
    exact ⟨now, item, shape, path, evidence, family, ⟨isFamily, family_bounded family known⟩,
      known, kind, isKind, raw, dense, languages, all, isRoot, ok⟩

theorem get?_workspaceMap (roots : List RelativePath) (id : Text) :
    (workspaceMap roots).get? id = if id ∈ roots then some { id, root := id } else none := by
  induction roots using reverseRecOn with
  | nil => rfl
  | append_singleton roots root ih =>
    have unfolds : workspaceMap (roots ++ [root]) =
        (workspaceMap roots).set root { id := root, root } := by
      rw [workspaceMap, foldl_append]
      rfl
    rw [unfolds, OrderedMap.get?_set, ih]
    by_cases same : root = id
    · subst same
      rw [if_pos rfl, if_pos (mem_append_right roots mem_cons_self)]
    · have apart : id ∈ roots ++ [root] ↔ id ∈ roots := by
        rw [mem_append, mem_singleton]
        exact ⟨fun cases => cases.resolve_right (Ne.symm same), .inl⟩
      rw [if_neg same]
      simp only [apart]

theorem mem_values_workspaceMap : workspace ∈ (workspaceMap roots).values ↔
      workspace.root ∈ roots ∧ workspace.id = workspace.root := by
  simp only [OrderedMap.mem_values, get?_workspaceMap]
  constructor
  · rintro ⟨id, found⟩
    split_ifs at found with member
    cases found
    exact ⟨member, rfl⟩
  · rintro ⟨member, same⟩
    rcases workspace with ⟨id, root⟩
    cases same
    exact ⟨_, if_pos member⟩

theorem nodup_values_workspaceMap (roots : List RelativePath) :
    ((workspaceMap roots).values.map (·.id)).Nodup := by
  have ids : (workspaceMap roots).values.map (·.id) = (workspaceMap roots).keys := by
    rw [OrderedMap.values, OrderedMap.keys, map_map, map_inj_left]
    intro entry member
    have found := OrderedMap.get?_eq_some.mpr member
    rw [get?_workspaceMap] at found
    split_ifs at found
    exact (congrArg NormalizedWorkspace.id (Option.some.inj found)).symm
  rw [ids]
  exact (workspaceMap roots).nodup

def sortedWorkspaces (roots : List RelativePath) : List NormalizedWorkspace :=
  sortBy (comparingWith compareUnits (·.id)) (workspaceMap roots).values

theorem mem_sortedWorkspaces : workspace ∈ sortedWorkspaces roots ↔
      workspace.root ∈ roots ∧ workspace.id = workspace.root := by
  rw [sortedWorkspaces, mem_sortBy, mem_values_workspaceMap]

theorem nodup_sortedWorkspaces (roots : List RelativePath) :
    ((sortedWorkspaces roots).map (·.id)).Nodup :=
  ((sortBy_perm _ _).map _).nodup_iff.mpr (nodup_values_workspaceMap roots)

theorem sortedWorkspaces_perm {roots roots' : List RelativePath}
    (perm : roots.Perm roots') : sortedWorkspaces roots = sortedWorkspaces roots' := by
  refine sortBy_eq_of_perm _ (fun left inLeft right inRight tie => ?_) ?_
  · exact inj_on_of_nodup_map (nodup_values_workspaceMap roots) inLeft inRight
      (compareUnits_eq_iff.mp tie)
  · refine (perm_ext_iff_of_nodup (nodup_values_workspaceMap roots).of_map
      (nodup_values_workspaceMap roots').of_map).mpr fun workspace => ?_
    rw [mem_values_workspaceMap, mem_values_workspaceMap, perm.mem_iff]

/-- What `readWorkspaces` takes, in the order of the input. -/
structure BoundariesRead (clock : TargetSamplerClock) (limits : TargetSamplerLimits)
    (value : JsValue) (roots : List RelativePath) : Prop where
  dense : ∃ raw, IsDense limits.maximumWorkspaceBoundaries value raw ∧
    Forall₂ ReadsBoundary raw roots
  inTime : InTime clock .boundary 0 roots.length

theorem readWorkspaces_eq_ok {workspaces : List NormalizedWorkspace} :
    readWorkspaces clock limits value = .ok workspaces ↔
      ∃ roots, BoundariesRead clock limits value roots ∧ workspaces = sortedWorkspaces roots := by
  have each : ∀ index value root, readBoundary clock index value = .ok root ↔
      (index % 1024 = 0 → clock.reading (.boundary index) = .inTime) ∧ ReadsBoundary value root :=
    fun _ _ _ => readBoundary_eq_ok
  unfold readWorkspaces
  simp only [bind_eq_ok, denseArray_eq_ok, mapEntries_eq_ok_due each, pure, Except.pure,
    Except.ok.injEq]
  constructor
  · rintro ⟨raw, dense, roots, ⟨due, all⟩, rfl⟩
    refine ⟨roots, ⟨⟨raw, dense, all⟩, fun index _ below => due index ?_⟩, rfl⟩
    rwa [all.length_eq, ← Nat.zero_add roots.length]
  · rintro ⟨roots, ⟨⟨raw, dense, all⟩, inTime⟩, rfl⟩
    refine ⟨raw, dense, roots, ⟨fun index below => inTime index (Nat.zero_le _) ?_, all⟩, rfl⟩
    rwa [Nat.zero_add, ← all.length_eq]

/-! ## Observations -/

/-- A record with a rule and a state. -/
structure ReadsFact (value : JsValue) (fact : TargetActivationFact) : Prop where
  shape : ∃ fields, IsRecord ["ruleId", "state"] value fields ∧
    get fields (js "ruleId") = .string fact.ruleId ∧
    (get fields (js "state")).text?.bind ActivationState.ofText = some fact.state
  bounded : fact.ruleId ≠ [] ∧ fact.ruleId.length ≤ 512
  id : isId fact.ruleId = true

theorem readFact_eq_ok {fact : TargetActivationFact} :
    readFact label index value = .ok fact ↔ ReadsFact value fact := by
  unfold readFact
  simp only [bind_eq_ok, exists_const, record_eq_ok, boundedText_eq_ok, failIf_eq_ok,
    Bool.not_eq_false]
  constructor
  · rintro ⟨fields, shape, ruleId, ⟨isRule, bounded⟩, id, run⟩
    split at run
    · rename_i state found
      cases run
      exact ⟨⟨fields, shape, isRule, found⟩, bounded, id⟩
    · cases run
  · rintro ⟨⟨fields, shape, isRule, found⟩, bounded, id⟩
    refine ⟨fields, shape, fact.ruleId, ⟨isRule, bounded⟩, id, ?_⟩
    rw [found]
    rfl

/-- What an observation says of a path, its states in the order of their rules. -/
structure TargetActivationObservation where
  path : RelativePath
  states : List TargetActivationFact

/-- A record with the path of a file and with states of distinct rules. -/
structure ReadsObservation (limits : TargetSamplerLimits) (value : JsValue)
    (observation : TargetActivationObservation) : Prop where
  shape : ∃ item raw facts, IsRecord ["path", "states"] value item ∧
    ReadsPath (get item (js "path")) observation.path ∧
    IsDense limits.maximumRulesPerPath (get item (js "states")) raw ∧
    Forall₂ ReadsFact raw facts ∧ observation.states = sortFacts facts
  distinct : (ruleIds observation.states).Nodup

/-- What the loop keeps of an observation. -/
def observe (state : ObservationState) (observation : TargetActivationObservation) :
    ObservationState where
  observations := state.observations.set observation.path observation.states
  activationFactCount := state.activationFactCount + observation.states.length
  ruleUniverse := some (ruleIds observation.states)

/-- What an observation has to fit to. -/
structure Fits (limits : TargetSamplerLimits) (sourcePaths : List RelativePath)
    (state : ObservationState) (observation : TargetActivationObservation) : Prop where
  source : observation.path ∈ sourcePaths
  fresh : observation.path ∉ state.observations.keys
  facts : state.activationFactCount + observation.states.length ≤ limits.maximumActivationFacts
  rules : ∀ rules, state.ruleUniverse = some rules → rules = ruleIds observation.states

theorem readObservation_eq_ok {sourcePaths : List RelativePath} {state next : ObservationState} :
    readObservation clock limits sourcePaths index state value = .ok next ↔
      (index % 1024 = 0 → clock.reading (.observation index) = .inTime) ∧
        ∃ observation, ReadsObservation limits value observation ∧
          Fits limits sourcePaths state observation ∧ next = observe state observation := by
  have each : ∀ label index value fact, readFact label index value = .ok fact ↔
      ReadsFact value fact := fun _ _ _ _ => readFact_eq_ok
  have common : ∀ rules, state.ruleUniverse.any (· != rules) = false ↔
      ∀ own, state.ruleUniverse = some own → own = rules := by
    intro rules
    cases state.ruleUniverse <;> simp
  unfold readObservation
  simp only [bind_eq_ok, exists_const, checkDeadlineAt_eq_ok, record_eq_ok, pathValue_eq_ok,
    denseArray_eq_ok, failIf_eq_ok, not_or, not_not, Nat.not_lt, mapEntries_eq_ok (each _),
    Bool.not_eq_true, common, pure, Except.pure, Except.ok.injEq]
  constructor
  · rintro ⟨now, item, shape, path, isPath, ⟨source, fresh⟩, raw, dense, few, facts, all, distinct,
      rules, rfl⟩
    have size : raw.length = (sortFacts facts).length := by
      rw [sortFacts, length_sortBy, all.length_eq]
    refine ⟨now, ⟨path, sortFacts facts⟩, ⟨⟨item, raw, facts, shape, isPath, dense, all, rfl⟩,
      distinct⟩, ⟨source, fresh, size ▸ few, rules⟩, ?_⟩
    rw [observe, size]
  · rintro ⟨now, ⟨path, states⟩, ⟨⟨item, raw, facts, shape, isPath, dense, all, sorted⟩, distinct⟩,
      ⟨source, fresh, few, rules⟩, rfl⟩
    obtain rfl : states = sortFacts facts := sorted
    have size : raw.length = (sortFacts facts).length := by
      rw [sortFacts, length_sortBy, all.length_eq]
    refine ⟨now, item, shape, path, isPath, ⟨source, fresh⟩, raw, dense, size ▸ few, facts, all,
      distinct, rules, ?_⟩
    rw [observe, size]

def totalFacts (observed : List TargetActivationObservation) : Nat :=
  (observed.map (·.states.length)).sum

/-- What the observations of a run have to be to each other and to what was kept before. -/
structure Consistent (limits : TargetSamplerLimits) (sourcePaths : List RelativePath)
    (state : ObservationState) (observed : List TargetActivationObservation) : Prop where
  sources : ∀ observation ∈ observed, observation.path ∈ sourcePaths
  fresh : ∀ observation ∈ observed, observation.path ∉ state.observations.keys
  distinct : (observed.map (·.path)).Nodup
  facts : state.activationFactCount + totalFacts observed ≤ limits.maximumActivationFacts
  rules : ∀ observation ∈ observed, ∀ rules, state.ruleUniverse = some rules →
    rules = ruleIds observation.states
  agree : ∀ observation ∈ observed, ∀ other ∈ observed,
    ruleIds observation.states = ruleIds other.states

theorem consistent_nil {sourcePaths : List RelativePath} (within : state.activationFactCount ≤ limits.maximumActivationFacts) :
    Consistent limits sourcePaths state [] where
  sources := by simp
  fresh := by simp
  distinct := nodup_nil
  facts := by simpa [totalFacts] using within
  rules := by simp
  agree := by simp

theorem consistent_cons {sourcePaths : List RelativePath} :
    Consistent limits sourcePaths state (observation :: observed) ↔
      Fits limits sourcePaths state observation ∧
        Consistent limits sourcePaths (observe state observation) observed := by
  have sum : totalFacts (observation :: observed) =
      observation.states.length + totalFacts observed := by
    rw [totalFacts, map_cons, sum_cons, totalFacts]
  constructor
  · rintro ⟨sources, fresh, distinct, facts, rules, agree⟩
    rw [map_cons, nodup_cons] at distinct
    rw [sum, ← Nat.add_assoc] at facts
    refine ⟨⟨sources _ mem_cons_self, fresh _ mem_cons_self, by omega,
      rules _ mem_cons_self⟩, ⟨?_, ?_, distinct.2, facts, ?_, ?_⟩⟩
    · exact fun other member => sources other (mem_cons_of_mem _ member)
    · intro other member known
      obtain old | same := (OrderedMap.mem_keys_set _ _ _ _).mp known
      · exact fresh other (mem_cons_of_mem _ member) old
      · exact distinct.1 (mem_map.mpr ⟨other, member, same⟩)
    · rintro other member _ ⟨⟩
      exact agree _ mem_cons_self _ (mem_cons_of_mem _ member)
    · exact fun first inFirst second inSecond => agree first (mem_cons_of_mem _ inFirst) second
        (mem_cons_of_mem _ inSecond)
  · rintro ⟨⟨source, new, few, same⟩, ⟨sources, fresh, distinct, facts, rules, agree⟩⟩
    have own : ∀ other ∈ observed, ruleIds observation.states = ruleIds other.states :=
      fun other member => rules other member _ rfl
    have apart : ∀ other ∈ observed, other.path ∉ state.observations.keys ∧
        other.path ≠ observation.path := by
      intro other member
      have unknown := fresh other member
      exact not_or.mp fun known => unknown ((OrderedMap.mem_keys_set _ _ _ _).mpr known)
    refine ⟨?_, ?_, ?_, ?_, ?_, ?_⟩
    · exact forall_mem_cons.mpr ⟨source, sources⟩
    · exact forall_mem_cons.mpr ⟨new, fun other member => (apart other member).1⟩
    · rw [map_cons, nodup_cons]
      refine ⟨fun member => ?_, distinct⟩
      obtain ⟨other, inRest, same⟩ := mem_map.mp member
      exact (apart other inRest).2 same
    · rw [sum, ← Nat.add_assoc]
      exact facts
    · refine forall_mem_cons.mpr ⟨same, fun other member rules known => ?_⟩
      exact (same rules known).trans (own other member)
    · intro first inFirst second inSecond
      obtain rfl | inRest := mem_cons.mp inFirst
      · obtain rfl | later := mem_cons.mp inSecond
        · rfl
        · exact own second later
      · obtain rfl | later := mem_cons.mp inSecond
        · exact (own first inRest).symm
        · exact agree first inRest second later

theorem readObservationsFrom_eq_ok
    {sourcePaths : List RelativePath} {state final : ObservationState}
    (within : state.activationFactCount ≤ limits.maximumActivationFacts) :
    readObservationsFrom clock limits sourcePaths index state raw = .ok final ↔
      InTime clock .observation index raw.length ∧
        ∃ observed, Forall₂ (ReadsObservation limits) raw observed ∧
          Consistent limits sourcePaths state observed ∧ final = observed.foldl observe state := by
  induction raw generalizing index state with
  | nil =>
    constructor
    · rintro ⟨⟩
      exact ⟨inTime_zero _ _ _, [], .nil, consistent_nil within, rfl⟩
    · rintro ⟨-, observed, all, -, rfl⟩
      cases all
      rfl
  | cons value raw ih =>
    rw [readObservationsFrom, bind_eq_ok, length_cons, inTime_succ]
    constructor
    · rintro ⟨next, run, rest⟩
      obtain ⟨now, observation, reads, fits, rfl⟩ := readObservation_eq_ok.mp run
      obtain ⟨later, observed, all, consistent, rfl⟩ := (ih fits.facts).mp rest
      exact ⟨⟨now, later⟩, observation :: observed, .cons reads all,
        consistent_cons.mpr ⟨fits, consistent⟩, rfl⟩
    · rintro ⟨⟨now, later⟩, observed, all, consistent, rfl⟩
      cases all with
      | @cons _ observation _ observed reads all =>
        obtain ⟨fits, consistent⟩ := consistent_cons.mp consistent
        refine ⟨_, readObservation_eq_ok.mpr ⟨now, observation, reads, fits, rfl⟩, ?_⟩
        exact (ih fits.facts).mpr ⟨later, observed, all, consistent, rfl⟩

theorem foldl_observe (distinct : (observed.map (·.path)).Nodup) :
    (observed.foldl observe unobserved).observations.entries =
        observed.map (fun observation => (observation.path, observation.states)) ∧
      (observed.foldl observe unobserved).activationFactCount = totalFacts observed := by
  induction observed using reverseRecOn with
  | nil => exact ⟨rfl, rfl⟩
  | append_singleton front observation ih =>
    rw [map_append, nodup_append_comm, map_singleton, singleton_append, nodup_cons] at distinct
    obtain ⟨entries, count⟩ := ih distinct.2
    have fresh : observation.path ∉ (front.foldl observe unobserved).observations.keys := by
      rw [OrderedMap.keys, entries, map_map]
      exact distinct.1
    rw [foldl_append, map_append, totalFacts, map_append, sum_append]
    refine ⟨?_, ?_⟩
    · rw [← entries]
      exact OrderedMap.entries_set_of_notMem fresh
    · exact congrArg (· + observation.states.length) count

/-- What `readObservations` takes, in the order of the input. -/
structure ObservationsRead (clock : TargetSamplerClock) (limits : TargetSamplerLimits)
    (sourcePaths : List RelativePath) (value : JsValue)
    (observed : List TargetActivationObservation) : Prop where
  dense : ∃ raw, IsDense limits.maximumPaths value raw ∧
    Forall₂ (ReadsObservation limits) raw observed
  inTime : InTime clock .observation 0 observed.length
  consistent : Consistent limits sourcePaths unobserved observed
  complete : observed.length = sourcePaths.length

theorem readObservations_eq_ok {sourcePaths : List RelativePath} :
    readObservations clock limits sourcePaths value = .ok state ↔
      ∃ observed, ObservationsRead clock limits sourcePaths value observed ∧
        state = observed.foldl observe unobserved := by
  have size : ∀ observed, Consistent limits sourcePaths unobserved observed →
      (observed.foldl observe unobserved).observations.keys.length = observed.length := by
    intro observed consistent
    rw [OrderedMap.keys, (foldl_observe consistent.distinct).1, length_map, length_map]
  unfold readObservations
  simp only [bind_eq_ok, denseArray_eq_ok, failIf_eq_ok, exists_const, not_not, pure, Except.pure,
    Except.ok.injEq]
  constructor
  · rintro ⟨raw, dense, state, run, complete, rfl⟩
    obtain ⟨inTime, observed, all, consistent, rfl⟩ :=
      (readObservationsFrom_eq_ok (Nat.zero_le _)).mp run
    rw [size observed consistent] at complete
    rw [all.length_eq] at inTime
    exact ⟨observed, ⟨⟨raw, dense, all⟩, inTime, consistent, complete⟩, rfl⟩
  · rintro ⟨observed, ⟨⟨raw, dense, all⟩, inTime, consistent, complete⟩, rfl⟩
    rw [← all.length_eq] at inTime
    refine ⟨raw, dense, observed.foldl observe unobserved, ?_, ?_, rfl⟩
    · exact (readObservationsFrom_eq_ok (Nat.zero_le _)).mpr ⟨inTime, observed, all, consistent, rfl⟩
    · rw [size observed consistent]
      exact complete

/-! ## Inputs -/

def inputKeys : List String :=
  ["activationObservations", "criticalPaths", "paths", "trackingCertainty", "trackingReason",
    "workspaceBoundaries", "workspaceUncertainty", "workspaceUncertaintyReasons"]

/-- The lists of an input, each in its order there, the states of an observation apart. -/
structure SampleTargetsInput where
  activationObservations : List TargetActivationObservation
  criticalPaths : List RelativePath
  paths : List RelativePath
  provenance : TargetSamplingProvenance
  workspaceRoots : List RelativePath

/-- What is left of an input in the end. -/
def SampleTargetsInput.normalized (input : SampleTargetsInput) : NormalizedInput where
  paths := sortBy compareUnits input.paths
  provenance := input.provenance
  workspaces := sortedWorkspaces input.workspaceRoots
  observed := input.activationObservations.foldl observe unobserved
  criticalPaths := sortBy compareUnits input.criticalPaths

def sourcePaths (toLowerCase : Text → Text) (paths : List RelativePath) : List RelativePath :=
  (sourcesOf toLowerCase (sortBy compareUnits paths)).map (·.path)

/-- What `normalizeInput` takes. -/
structure InputRead (toLowerCase : Text → Text) (clock : TargetSamplerClock)
    (limits : TargetSamplerLimits) (fields : List (Text × JsValue)) (input : SampleTargetsInput) :
    Prop where
  paths : PathsRead clock limits (get fields (js "paths")) input.paths
  provenance : readProvenance fields = .ok input.provenance
  boundaries : BoundariesRead clock limits (get fields (js "workspaceBoundaries"))
    input.workspaceRoots
  observations : ObservationsRead clock limits (sourcePaths toLowerCase input.paths)
    (get fields (js "activationObservations")) input.activationObservations
  critical : CriticalRead limits (get fields (js "criticalPaths")) input.criticalPaths

theorem normalizeInput_eq_ok {normalized : NormalizedInput} :
    normalizeInput toLowerCase clock limits value = .ok normalized ↔
      ∃ fields input, IsRecord inputKeys value fields ∧
        InputRead toLowerCase clock limits fields input ∧ normalized = input.normalized := by
  unfold normalizeInput
  simp only [bind_eq_ok, record_eq_ok, readPaths_eq_ok, readWorkspaces_eq_ok,
    readObservations_eq_ok, readCriticalPaths_eq_ok, pure, Except.pure, Except.ok.injEq]
  constructor
  · rintro ⟨fields, shape, _, ⟨paths, readPaths, rfl⟩, provenance, isProvenance, _,
      ⟨roots, readRoots, rfl⟩, _, ⟨observed, readObserved, rfl⟩, _, ⟨critical, readCritical, rfl⟩, rfl⟩
    exact ⟨fields, ⟨observed, critical, paths, provenance, roots⟩, shape,
      ⟨readPaths, isProvenance, readRoots, readObserved, readCritical⟩, rfl⟩
  · rintro ⟨fields, input, shape, reads, rfl⟩
    exact ⟨fields, shape, _, ⟨_, reads.paths, rfl⟩, _, reads.provenance, _,
      ⟨_, reads.boundaries, rfl⟩, _, ⟨_, reads.observations, rfl⟩, _, ⟨_, reads.critical, rfl⟩, rfl⟩

/-! ## Order -/

def Shuffled (value value' : JsValue) : Prop :=
  ∃ items items', value = .array items ∧ value' = .array items' ∧ items.Perm items'

/-- Two records with the same fields, the given ones apart. -/
structure SameRecord (apart : List String) (fields fields' : List (Text × JsValue)) : Prop where
  keys : (keys fields).Perm (keys fields')
  same : ∀ key, key ∉ apart → get fields (js key) = get fields' (js key)

/-- Two observations of one path, with the same states. -/
def SameObservation (value value' : JsValue) : Prop :=
  ∃ fields fields', value = .object fields ∧ value' = .object fields' ∧
    SameRecord ["states"] fields fields' ∧
    Shuffled (get fields (js "states")) (get fields' (js "states"))

/-- Two lists of observations, which are the same but for the order of the list and of states. -/
def SameObservations (value value' : JsValue) : Prop :=
  ∃ items middle items', value = .array items ∧ value' = .array items' ∧ items.Perm middle ∧
    Forall₂ SameObservation middle items'

/-- Inputs that differ in the order of their paths, observations, states, critical paths and
boundaries. -/
def Reordered (value value' : JsValue) : Prop :=
  ∃ fields fields', value = .object fields ∧ value' = .object fields' ∧
    SameRecord ["activationObservations", "criticalPaths", "paths", "workspaceBoundaries"]
      fields fields' ∧
    Shuffled (get fields (js "paths")) (get fields' (js "paths")) ∧
    Shuffled (get fields (js "criticalPaths")) (get fields' (js "criticalPaths")) ∧
    Shuffled (get fields (js "workspaceBoundaries"))
      (get fields' (js "workspaceBoundaries")) ∧
    SameObservations (get fields (js "activationObservations"))
      (get fields' (js "activationObservations"))

theorem IsDense.shuffled (dense : IsDense maximum value raw)
    (shuffled : Shuffled value value') : ∃ raw', IsDense maximum value' raw' ∧ raw.Perm raw' := by
  obtain ⟨items, items', rfl, rfl, perm⟩ := shuffled
  cases dense.eq
  exact ⟨items', ⟨rfl, perm.length_eq ▸ dense.within, fun item member =>
    dense.data item (perm.mem_iff.mpr member)⟩, perm⟩

theorem not_isAccessor_of_shuffled (shuffled : Shuffled value value') :
    isAccessor value' = false := by
  obtain ⟨items, items', rfl, rfl, -⟩ := shuffled
  rfl

/-- Another record with the same keys is one as well, where the fields that differ have values. -/
theorem IsRecord.same {expected apart : List String} {fields fields' : List (Text × JsValue)}
    (shape : IsRecord expected (.object fields) fields) (same : SameRecord apart fields fields')
    (data : ∀ key ∈ apart, isAccessor (get fields' (js key)) = false) :
    IsRecord expected (.object fields') fields' where
  eq := rfl
  size := by
    have sizes := same.keys.length_eq
    rw [JsValue.keys, JsValue.keys, length_map, length_map] at sizes
    rw [← sizes, shape.size]
  known := fun key member => shape.known key (same.keys.mem_iff.mpr member)
  data := by
    intro key member
    by_cases differs : key ∈ apart
    · exact data key differs
    · rw [← same.same key differs]
      exact shape.data key member

theorem PathsRead.shuffled
    (reads : PathsRead clock limits value paths) (shuffled : Shuffled value value') :
    ∃ paths', PathsRead clock limits value' paths' ∧ paths'.Perm paths := by
  obtain ⟨⟨raw, dense, all⟩, inTime, bytes, nodup⟩ := reads
  obtain ⟨raw', dense', perm⟩ := dense.shuffled shuffled
  obtain ⟨paths', all', perm'⟩ := forall₂_perm all perm
  refine ⟨paths', ⟨⟨raw', dense', all'⟩, perm'.length_eq ▸ inTime, ?_, perm'.nodup_iff.mpr nodup⟩,
    perm'⟩
  rw [totalBytes, (perm'.map _).sum_eq]
  exact bytes

theorem CriticalRead.shuffled (reads : CriticalRead limits value paths)
    (shuffled : Shuffled value value') :
    ∃ paths', CriticalRead limits value' paths' ∧ paths'.Perm paths := by
  obtain ⟨⟨raw, dense, all⟩, nodup⟩ := reads
  obtain ⟨raw', dense', perm⟩ := dense.shuffled shuffled
  obtain ⟨paths', all', perm'⟩ := forall₂_perm all perm
  exact ⟨paths', ⟨⟨raw', dense', all'⟩, perm'.nodup_iff.mpr nodup⟩, perm'⟩

theorem BoundariesRead.shuffled
    (reads : BoundariesRead clock limits value roots) (shuffled : Shuffled value value') :
    ∃ roots', BoundariesRead clock limits value' roots' ∧ roots'.Perm roots := by
  obtain ⟨⟨raw, dense, all⟩, inTime⟩ := reads
  obtain ⟨raw', dense', perm⟩ := dense.shuffled shuffled
  obtain ⟨roots', all', perm'⟩ := forall₂_perm all perm
  exact ⟨roots', ⟨⟨raw', dense', all'⟩, perm'.length_eq ▸ inTime⟩, perm'⟩

theorem sortFacts_perm {facts facts' : List TargetActivationFact} (distinct : (ruleIds facts).Nodup)
    (perm : facts'.Perm facts) : sortFacts facts' = sortFacts facts := by
  refine (sortBy_eq_of_perm _ (fun left inLeft right inRight tie => ?_) perm.symm).symm
  exact inj_on_of_nodup_map distinct inLeft inRight (compareUnits_eq_iff.mp tie)

theorem ReadsObservation.same (reads : ReadsObservation limits value observation)
    (same : SameObservation value value') : ReadsObservation limits value' observation := by
  obtain ⟨⟨item, raw, facts, shape, isPath, dense, all, sorted⟩, distinct⟩ := reads
  obtain ⟨fields, fields', rfl, rfl, record, shuffled⟩ := same
  cases shape.eq
  obtain ⟨raw', dense', perm⟩ := dense.shuffled shuffled
  obtain ⟨facts', all', perm'⟩ := forall₂_perm all perm
  have rules : (ruleIds facts).Nodup := by
    rw [sorted] at distinct
    exact ((sortBy_perm _ facts).map _).nodup_iff.mp distinct
  refine ⟨⟨fields', raw', facts', shape.same record ?_, ?_, dense', all', ?_⟩, distinct⟩
  · rintro key member
    cases mem_singleton.mp member
    exact not_isAccessor_of_shuffled shuffled
  · rw [← record.same "path" (by decide)]
    exact isPath
  · rw [sorted, sortFacts_perm rules perm']

theorem forall₂_same {items items' : List JsValue} (same : Forall₂ SameObservation items items')
    (all : Forall₂ (ReadsObservation limits) items observed) :
    Forall₂ (ReadsObservation limits) items' observed := by
  induction same generalizing observed with
  | nil =>
    cases all
    exact .nil
  | cons same _ ih =>
    cases all with
    | cons reads all => exact .cons (reads.same same) (ih all)

theorem Consistent.perm {sourcePaths : List RelativePath}
    (consistent : Consistent limits sourcePaths state observed) (perm : observed'.Perm observed) :
    Consistent limits sourcePaths state observed' where
  sources := fun observation member => consistent.sources _ (perm.mem_iff.mp member)
  fresh := fun observation member => consistent.fresh _ (perm.mem_iff.mp member)
  distinct := (perm.map _).nodup_iff.mpr consistent.distinct
  facts := by
    rw [totalFacts, (perm.map _).sum_eq]
    exact consistent.facts
  rules := fun observation member => consistent.rules _ (perm.mem_iff.mp member)
  agree := fun first inFirst second inSecond =>
    consistent.agree first (perm.mem_iff.mp inFirst) second (perm.mem_iff.mp inSecond)

theorem ObservationsRead.same {sourcePaths : List RelativePath}
    (reads : ObservationsRead clock limits sourcePaths value observed)
    (same : SameObservations value value') :
    ∃ observed', ObservationsRead clock limits sourcePaths value' observed' ∧
      observed'.Perm observed := by
  obtain ⟨⟨raw, dense, all⟩, inTime, consistent, complete⟩ := reads
  obtain ⟨items, middle, items', rfl, rfl, perm, each⟩ := same
  cases dense.eq
  obtain ⟨observed', all', perm'⟩ := forall₂_perm all perm
  have data : ∀ item ∈ items', isAccessor item = false := by
    intro item member
    obtain ⟨_, _, _, fields', _, rfl, _⟩ := exists_right_of_forall₂ each member
    rfl
  refine ⟨observed', ⟨⟨items', ⟨rfl, ?_, data⟩, forall₂_same each all'⟩, perm'.length_eq ▸ inTime,
    consistent.perm perm', perm'.length_eq.trans complete⟩, perm'⟩
  rw [← each.length_eq, ← perm.length_eq]
  exact dense.within

/-- What two readings agree in. -/
structure Agree (input input' : NormalizedInput) : Prop where
  paths : input'.paths = input.paths
  provenance : input'.provenance = input.provenance
  workspaces : input'.workspaces = input.workspaces
  observations : ∀ path, input'.observed.observations.get? path = input.observed.observations.get? path
  facts : input'.observed.activationFactCount = input.observed.activationFactCount
  criticalPaths : input'.criticalPaths = input.criticalPaths

theorem observe_perm (distinct : (observed.map (·.path)).Nodup) (perm : observed'.Perm observed) :
    (∀ path, (observed'.foldl observe unobserved).observations.get? path =
      (observed.foldl observe unobserved).observations.get? path) ∧
    (observed'.foldl observe unobserved).activationFactCount =
      (observed.foldl observe unobserved).activationFactCount := by
  obtain ⟨entries, count⟩ := foldl_observe distinct
  obtain ⟨entries', count'⟩ := foldl_observe ((perm.map _).nodup_iff.mpr distinct)
  constructor
  · intro path
    refine Option.ext fun states => ?_
    rw [OrderedMap.get?_eq_some, OrderedMap.get?_eq_some, entries, entries', (perm.map _).mem_iff]
  · rw [count, count', totalFacts, (perm.map _).sum_eq, totalFacts]

/-- Inputs that differ in order are read alike. -/
theorem normalizeInput_reordered {normalized : NormalizedInput}
    (reads : normalizeInput toLowerCase clock limits value = .ok normalized)
    (reordered : Reordered value value') :
    ∃ normalized', normalizeInput toLowerCase clock limits value' = .ok normalized' ∧
      Agree normalized normalized' := by
  obtain ⟨fields, input, shape, facts, rfl⟩ := normalizeInput_eq_ok.mp reads
  obtain ⟨_, fields', rfl, rfl, record, paths, critical, boundaries, observations⟩ := reordered
  cases shape.eq
  obtain ⟨paths', readPaths, samePaths⟩ := facts.paths.shuffled paths
  obtain ⟨critical', readCritical, sameCritical⟩ := facts.critical.shuffled critical
  obtain ⟨roots', readRoots, sameRoots⟩ := facts.boundaries.shuffled boundaries
  obtain ⟨observed', readObserved, sameObserved⟩ := facts.observations.same observations
  have sorted : sortBy compareUnits paths' = sortBy compareUnits input.paths :=
    sortBy_compareUnits_of_perm samePaths
  have provenance : readProvenance fields' = .ok input.provenance := by
    rw [← facts.provenance]
    unfold readProvenance
    rw [record.same "trackingCertainty" (by decide), record.same "trackingReason" (by decide),
      record.same "workspaceUncertainty" (by decide),
      record.same "workspaceUncertaintyReasons" (by decide)]
  have data : ∀ key ∈ ["activationObservations", "criticalPaths", "paths", "workspaceBoundaries"],
      isAccessor (get fields' (js key)) = false := by
    refine forall_mem_cons.mpr ⟨?_, forall_mem_cons.mpr ⟨not_isAccessor_of_shuffled critical,
      forall_mem_cons.mpr ⟨not_isAccessor_of_shuffled paths,
        forall_mem_singleton.mpr (not_isAccessor_of_shuffled boundaries)⟩⟩⟩
    obtain ⟨_, _, items', _, isArray, -⟩ := observations
    rw [isArray]
    rfl
  refine ⟨_, normalizeInput_eq_ok.mpr ⟨fields', ⟨observed', critical', paths', input.provenance,
    roots'⟩, shape.same record data, ⟨readPaths, provenance, readRoots, ?_, readCritical⟩, rfl⟩, ?_⟩
  · unfold sourcePaths
    rw [sorted]
    exact readObserved
  · obtain ⟨sameStates, sameCount⟩ := observe_perm facts.observations.consistent.distinct sameObserved
    exact ⟨sorted, rfl, sortedWorkspaces_perm sameRoots, sameStates, sameCount,
      sortBy_compareUnits_of_perm sameCritical⟩

/-! ## Samples -/

theorem candidatesFrom_congr
    {observations observations' : OrderedMap RelativePath (List TargetActivationFact)}
    (same : ∀ path, observations'.get? path = observations.get? path)
    (ids : OrderedMap Text Text) (sources : List Source) :
    candidatesFrom observations' ids sources = candidatesFrom observations ids sources := by
  induction sources generalizing ids with
  | nil => rfl
  | cons source sources ih => rw [candidatesFrom, candidatesFrom, same, ih]

theorem sampleInput_agree {input input' : NormalizedInput} (agree : Agree input input') :
    sampleInput toLowerCase clock limits input' = sampleInput toLowerCase clock limits input := by
  have criteria : ∀ candidates, requiredCriteria input' candidates =
      requiredCriteria input candidates := by
    intro candidates
    unfold requiredCriteria
    rw [agree.criticalPaths, agree.paths, agree.workspaces]
  have selects : ∀ sources candidates, selectTargets limits input' sources candidates =
      selectTargets limits input sources candidates := by
    intro sources candidates
    unfold selectTargets
    rw [criteria]
  have results : ∀ sources candidates reasons,
      assembleResult limits input' sources candidates reasons =
        assembleResult limits input sources candidates reasons := by
    intro sources candidates reasons
    unfold assembleResult allCriteria
    rw [criteria, agree.provenance, agree.facts, agree.criticalPaths, agree.paths, agree.workspaces]
  unfold sampleInput
  simp only [agree.paths, candidatesFrom_congr agree.observations, selects, results]

/-- The result does not depend on the order of an input. -/
theorem sampleTargets_reordered {value value' options : JsValue} {result : TargetSamplingResult}
    (accepts : sampleTargets toLowerCase clock value options = .ok result)
    (reordered : Reordered value value') :
    sampleTargets toLowerCase clock value' options = .ok result := by
  unfold sampleTargets at accepts ⊢
  obtain ⟨limits, resolved, accepts⟩ := bind_eq_ok.mp accepts
  obtain ⟨started, accepts⟩ := check_bind_eq_ok.mp accepts
  obtain ⟨normalized, reads, accepts⟩ := bind_eq_ok.mp accepts
  obtain ⟨normalized', reads', agree⟩ := normalizeInput_reordered reads reordered
  refine bind_eq_ok.mpr ⟨limits, resolved, check_bind_eq_ok.mpr ⟨started, ?_⟩⟩
  exact bind_eq_ok.mpr ⟨normalized', reads', (sampleInput_agree agree).trans accepts⟩

end AgentContextLint.TargetSampler
