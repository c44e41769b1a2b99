import AgentContextLint.Lib.PrefixOrder
import AgentContextLint.Resolver.TargetReading

/-!
# What a target sample covers

The criteria of an accepted input: each asks for the members of its group, counts them and selects
one of them (`Covers`). Two things can go wrong. A name that every object inherits is taken for a
source file whatever it is, and the count below a workspace root leaves out what sorts behind
U+10FFFF; `sampleTargets_sound_iff` says that nothing else can.
-/

namespace AgentContextLint.TargetSampler

open Utf16 Sorting Metered List
open RepositoryPath (isRepositoryRelativePath repositoryRoot)
open OrderedMap (get?_set)

/-! ## Ranges of paths -/

section Ranges

variable {paths : List RelativePath}

theorem lowerBound_pairwise (increasing : paths.Pairwise (· < ·)) (value : Text) :
    paths.Pairwise fun first second => decide (second < value) → decide (first < value) := by
  refine increasing.imp fun less below => ?_
  exact decide_eq_true (List.lt_trans less (of_decide_eq_true below))

theorem lowerBound_eq (increasing : paths.Pairwise (· < ·)) (value : Text) :
    lowerBound paths value = (paths.filter (· < value)).length ∧
      paths.drop (lowerBound paths value) = paths.filter fun path => !decide (path < value) := by
  obtain ⟨front, back⟩ := Bisect.take_bisect (lowerBound_pairwise increasing value)
  refine ⟨?_, back⟩
  rw [← front, length_take, lowerBound, Nat.min_eq_left]
  exact (Bisect.bisect_boundary
    (Bisect.antitone_of_pairwise (lowerBound_pairwise increasing value))).1

theorem not_lt_of_continues {p path : Text} (continues : p <+: path) : ¬ path < p := by
  obtain ⟨rest, rfl⟩ := continues
  cases rest with
  | nil => simp
  | cons u rest => exact List.lt_asymm (PrefixOrder.lt_append_cons p u rest)

theorem prefix_of_le_of_lt {p path rest : Text} (above : ¬ path < p) (under : path < p ++ rest) :
    p <+: path := by
  obtain less | same | more := lt_trichotomy path p
  · exact absurd less above
  · exact same ▸ prefix_refl path
  · exact PrefixOrder.prefix_of_between more under

/-- Two tests that no member passes both count together what either counts. -/
theorem length_filter_eq_add {α : Type} {test left right : α → Bool}
    (split : ∀ x, test x = (left x || right x)) (apart : ∀ x, left x = true → right x = false)
    (list : List α) :
    (list.filter test).length = (list.filter left).length + (list.filter right).length := by
  induction list with
  | nil => rfl
  | cons x list ih =>
    rw [filter_cons, filter_cons, filter_cons, split x]
    cases first : left x with
    | true =>
      rw [apart x first]
      simpa [Nat.add_right_comm] using ih
    | false =>
      cases right x with
      | true => simpa [← Nat.add_assoc] using ih
      | false => simpa using ih

/-- What is counted between a prefix and its continuation by a bound. -/
theorem count_between (increasing : paths.Pairwise (· < ·)) (p bound : Text) :
    lowerBound paths (p ++ bound) - lowerBound paths p =
      (paths.filter fun path => p.isPrefixOf path && decide (path < p ++ bound)).length := by
  have split : ∀ path : Text, decide (path < p ++ bound) =
      (decide (path < p) || p.isPrefixOf path && decide (path < p ++ bound)) := by
    intro path
    rw [Bool.eq_iff_iff, Bool.or_eq_true, Bool.and_eq_true, decide_eq_true_iff, decide_eq_true_iff,
      isPrefixOf_iff_prefix]
    constructor
    · intro under
      by_cases below : path < p
      · exact .inl below
      · exact .inr ⟨prefix_of_le_of_lt below under, under⟩
    · rintro (below | ⟨-, under⟩)
      · obtain less | same | more := lt_trichotomy p (p ++ bound)
        · exact List.lt_trans below less
        · exact same ▸ below
        · exact absurd more (not_lt_of_continues ⟨bound, rfl⟩)
      · exact under
  have apart : ∀ path : Text, decide (path < p) = true →
      (p.isPrefixOf path && decide (path < p ++ bound)) = false := by
    intro path below
    rw [Bool.and_eq_false_iff]
    refine .inl (Bool.eq_false_iff.mpr fun continues => ?_)
    exact not_lt_of_continues ( isPrefixOf_iff_prefix.mp continues) (of_decide_eq_true below)
  rw [(lowerBound_eq increasing _).1, (lowerBound_eq increasing _).1,
    length_filter_eq_add split apart, Nat.add_sub_cancel_left]

theorem first_under (increasing : paths.Pairwise (· < ·)) (p : Text) :
    (paths[lowerBound paths p]?).filter (fun path => p.isPrefixOf path) =
      (paths.filter fun path => p.isPrefixOf path).head? := by
  have back := (lowerBound_eq increasing p).2
  have members : (paths.filter fun path => !decide (path < p)).filter (fun path => p.isPrefixOf path) =
      paths.filter fun path => p.isPrefixOf path := by
    rw [filter_filter]
    refine filter_congr fun path _ => ?_
    cases continues : p.isPrefixOf path with
    | false => rfl
    | true =>
      have above := not_lt_of_continues ( isPrefixOf_iff_prefix.mp continues)
      rw [decide_eq_false above]
      rfl
  have sorted : (paths.filter fun path => !decide (path < p)).Pairwise (· < ·) := increasing.filter _
  have above : ∀ path ∈ paths.filter fun path => !decide (path < p), ¬ path < p := by
    intro path member below
    have kept := (mem_filter.mp member).2
    rw [decide_eq_true below] at kept
    cases kept
  rw [← members, ← head?_drop, back]
  generalize paths.filter (fun path => !decide (path < p)) = later at sorted above
  cases later with
  | nil => rfl
  | cons first later =>
    rw [head?_cons, Option.filter_some, filter_cons]
    split_ifs with continues
    · rfl
    · have none : later.filter (fun path => p.isPrefixOf path) = [] := by
        refine filter_eq_nil_iff.mpr fun path member inside => ?_
        obtain ⟨rest, rfl⟩ := isPrefixOf_iff_prefix.mp inside
        have less := rel_of_pairwise_cons sorted member
        have behind := prefix_of_le_of_lt (above first mem_cons_self) less
        exact continues ( isPrefixOf_iff_prefix.mpr behind)
      rw [none]
      rfl

end Ranges

variable {limits : TargetSamplerLimits} {reasons next : Reasons} {reason : Text}
  {sources : List Source} {states states' : List TargetActivationFact}

/-! ## Candidates -/

theorem text_state_injective {state state' : ActivationState} (same : state.text = state'.text) :
    state = state' := by
  revert same
  cases state <;> cases state' <;> decide

theorem bar_notMem_text (state : ActivationState) : (0x7c : CodeUnit) ∉ state.text := by
  cases state <;> decide

theorem signatureOf_eq (fact : TargetActivationFact) :
    signatureOf fact = (Netstring.decimalText fact.ruleId.length ++ js ":" ++ fact.ruleId ++ js ":") ++
      fact.state.text := rfl

theorem fact_ext {fact fact' : TargetActivationFact} (rule : fact.ruleId = fact'.ruleId)
    (text : fact.state.text = fact'.state.text) : fact = fact' := by
  rcases fact with ⟨id, state⟩
  rcases fact' with ⟨id', state'⟩
  cases rule
  cases text_state_injective text
  rfl

theorem partitionSignature_injective (rules : ruleIds states = ruleIds states')
    (same : partitionSignature states = partitionSignature states') : states = states' := by
  induction states generalizing states' with
  | nil =>
    cases states' with
    | nil => rfl
    | cons fact' states' => cases rules
  | cons fact states ih =>
    cases states' with
    | nil => cases rules
    | cons fact' states' =>
      obtain ⟨own, rest⟩ : fact.ruleId = fact'.ruleId ∧ ruleIds states = ruleIds states' :=
        List.cons.inj rules
      unfold partitionSignature at same ih
      rw [map_cons, map_cons] at same
      cases states with
      | nil =>
        cases states' with
        | nil =>
          rw [map_nil, intercalate_singleton, intercalate_singleton,
            signatureOf_eq, signatureOf_eq, own] at same
          rw [fact_ext own (append_cancel_left same)]
        | cons second states' => cases rest
      | cons second states =>
        cases states' with
        | nil => cases rest
        | cons second' states' =>
          rw [intercalate_cons_of_ne_nil (by simp), intercalate_cons_of_ne_nil (by simp)] at same
          rw [signatureOf_eq fact, signatureOf_eq fact', own, append_assoc,
            append_assoc, append_assoc _ fact'.state.text,
            append_assoc _ (fact'.state.text ++ js "|"),
            append_assoc fact'.state.text] at same
          obtain ⟨text, later⟩ := Netstring.append_cons_inj (bar_notMem_text fact.state)
            (bar_notMem_text fact'.state) (append_cancel_left same)
          rw [fact_ext own text, ih rest later]

/-- What a partition id is the digest of. -/
def partitionInput (states : List TargetActivationFact) : List UInt8 :=
  Utf8.encode (js "target-activation-partition-v1") ++
    states.flatMap fun fact => [fact.ruleId, fact.state.text].flatMap fun field =>
      0 :: Netstring.frame (Utf8.encode field)

theorem partitionInput_injective (rules : ruleIds states = ruleIds states')
    (same : partitionInput states = partitionInput states') : states = states' := by
  have frames := append_cancel_left same
  clear same
  simp only [flatMap_cons, flatMap_nil, append_nil, cons_append] at frames
  induction states generalizing states' with
  | nil =>
    cases states' with
    | nil => rfl
    | cons fact' states' => cases rules
  | cons fact states ih =>
    cases states' with
    | nil => cases rules
    | cons fact' states' =>
      obtain ⟨own, rest⟩ : fact.ruleId = fact'.ruleId ∧ ruleIds states = ruleIds states' :=
        List.cons.inj rules
      simp only [flatMap_cons, cons_append, append_assoc, List.cons.injEq, true_and] at frames
      obtain ⟨-, behind⟩ := Netstring.frame_append_inj frames
      obtain ⟨texts, later⟩ := Netstring.frame_append_inj (List.cons.inj behind).2
      have state : fact.state.text = fact'.state.text := by
        revert texts
        cases fact.state <;> cases fact'.state <;> decide
      rw [fact_ext own state, ih rest later]

def candidateOf (states : RelativePath → List TargetActivationFact) (source : Source) :
    Candidate := { source with partitionId := partitionId (states source.path) }

/-- Where all sources have states of the same rules, the register of signatures changes nothing. -/
theorem candidatesFrom_eq {observations : OrderedMap RelativePath (List TargetActivationFact)}
    {rules : List Text} (ids : OrderedMap Text Text)
    (universe_ : ∀ source ∈ sources, ruleIds ((observations.get? source.path).getD []) = rules)
    (known : ∀ states, ruleIds states = rules → ∀ id,
      ids.get? (partitionSignature states) = some id → id = partitionId states) :
    candidatesFrom observations ids sources =
      sources.map (candidateOf fun path => (observations.get? path).getD []) := by
  induction sources generalizing ids with
  | nil => rfl
  | cons source sources ih =>
    have own := universe_ source mem_cons_self
    have id : (ids.get? (partitionSignature ((observations.get? source.path).getD []))).getD
        (partitionId ((observations.get? source.path).getD [])) =
          partitionId ((observations.get? source.path).getD []) := by
      cases found : ids.get? (partitionSignature ((observations.get? source.path).getD [])) with
      | none => rfl
      | some id => exact known _ own id found
    rw [candidatesFrom, id, map_cons]
    refine congrArg (_ :: ·) (ih _ ?_ ?_)
    · exact fun other member => universe_ other (mem_cons_of_mem _ member)
    · intro states same id found
      rw [get?_set] at found
      split_ifs at found with signature
      · cases found
        rw [partitionSignature_injective (own.trans same.symm) signature]
      · exact known states same id found

/-! ## Groups -/

/-- A group has the number of its candidates, and the first of them. -/
theorem get?_tallyBy (id : Candidate → Text) (candidates : List Candidate) (asked : Text) :
    (tallyBy id candidates).get? asked =
      (candidates.filter fun candidate => id candidate = asked).head?.map fun first =>
        { count := (candidates.filter fun candidate => id candidate = asked).length,
          first := first.path } := by
  induction candidates using reverseRecOn with
  | nil => rfl
  | append_singleton front candidate ih =>
    have unfolds : tallyBy id (front ++ [candidate]) =
        tally (tallyBy id front) (id candidate) candidate.path := by
      rw [tallyBy, foldl_append]
      rfl
    rw [unfolds, filter_append]
    by_cases own : id candidate = asked
    · subst own
      rw [filter_singleton, decide_eq_true rfl, cond_true, tally]
      cases members : front.filter fun other => id other = id candidate with
      | nil =>
        rw [members] at ih
        rw [ih]
        exact (get?_set _ _ _ _).trans (if_pos rfl)
      | cons first rest =>
        rw [members] at ih
        rw [ih]
        refine (get?_set _ _ _ _).trans ((if_pos rfl).trans ?_)
        simp
    · have others : (tally (tallyBy id front) (id candidate) candidate.path).get? asked =
          (tallyBy id front).get? asked := by
        unfold tally
        cases (tallyBy id front).get? (id candidate) with
        | none => exact (get?_set _ _ _ _).trans (if_neg own)
        | some group => exact (get?_set _ _ _ _).trans (if_neg own)
      rw [others, ih, filter_singleton, decide_eq_false own, cond_false, append_nil]

theorem mem_sortedEntries {groups : OrderedMap Text CoverageGroup} {entry : Text × CoverageGroup} :
    entry ∈ sortedEntries groups ↔ groups.get? entry.1 = some entry.2 := by
  rw [sortedEntries, mem_sortBy, OrderedMap.get?_eq_some]

theorem nodup_sortedEntries (groups : OrderedMap Text CoverageGroup) :
    ((sortedEntries groups).map (·.1)).Nodup :=
  ((sortBy_perm _ _).map _).nodup_iff.mpr groups.nodup

/-! ## Criteria -/

def criterionKey (criterion : TargetCoverageCriterion) : TargetCoverageKind × Text :=
  (criterion.kind, criterion.id)

/-- Criteria of one kind, told apart by their identifiers. -/
theorem nodup_ofKind {α : Type} (kind : TargetCoverageKind) (make : α → TargetCoverageCriterion)
    (id : α → Text) (kinds : ∀ x, (make x).kind = kind) (ids : ∀ x, (make x).id = id x)
    {list : List α} (distinct : (list.map id).Nodup) :
    ((list.map make).map criterionKey).Nodup ∧
      ∀ key ∈ (list.map make).map criterionKey, key.1 = kind := by
  have keys : (list.map make).map criterionKey = (list.map id).map fun id => (kind, id) := by
    rw [map_map, map_map, map_inj_left]
    intro x _
    exact Prod.ext (kinds x) (ids x)
  rw [keys]
  refine ⟨distinct.map fun _ _ same => (Prod.ext_iff.mp same).2, fun key member => ?_⟩
  obtain ⟨id, -, rfl⟩ := mem_map.mp member
  rfl

/-- Criteria of another kind are others. -/
theorem nodup_append_ofKind {kinds : List TargetCoverageKind} {kind : TargetCoverageKind}
    {keys keys' : List (TargetCoverageKind × Text)}
    (left : keys.Nodup ∧ ∀ key ∈ keys, key.1 ∈ kinds)
    (right : keys'.Nodup ∧ ∀ key ∈ keys', key.1 = kind) (apart : kind ∉ kinds) :
    (keys ++ keys').Nodup ∧ ∀ key ∈ keys ++ keys', key.1 ∈ kind :: kinds := by
  refine ⟨nodup_append.mpr ⟨left.1, right.1, ?_⟩, fun key member => ?_⟩
  · rintro key inLeft _ inRight rfl
    exact apart (right.2 key inRight ▸ left.2 key inLeft)
  · obtain inLeft | inRight := mem_append.mp member
    · exact mem_cons_of_mem _ (left.2 key inLeft)
    · exact right.2 key inRight ▸ mem_cons_self

/-- No two criteria have the same kind and the same identifier. -/
theorem nodup_allCriteria {input : SampleTargetsInput}
    (critical : input.criticalPaths.Nodup) (sources : List Source) (candidates : List Candidate) :
    ((allCriteria limits input.normalized sources candidates).map criterionKey).Nodup := by
  have exhaustive : ((if isExhaustive limits sources then [exhaustiveCriterion sources] else []).map
      criterionKey).Nodup ∧ ∀ key ∈ (if isExhaustive limits sources then
        [exhaustiveCriterion sources] else []).map criterionKey,
          key.1 ∈ [TargetCoverageKind.exhaustiveSourceSet] := by
    split_ifs
    · exact ⟨nodup_singleton _, fun key member => by
        cases mem_singleton.mp member
        exact mem_cons_self⟩
    · exact ⟨nodup_nil, fun key member => nomatch member⟩
  have distinct : (input.normalized.criticalPaths.map id).Nodup := by
    rw [map_id]
    exact (nodup_sortBy _).mpr critical
  have criticalKeys := nodup_ofKind .criticalPath (criticalCriterion input.normalized.paths) id
    (fun _ => rfl) (fun _ => rfl) distinct
  have workspaceKeys := nodup_ofKind .workspaceRoot (workspaceCriterion (candidates.map (·.path)))
    (·.id) (fun _ => rfl) (fun _ => rfl) (nodup_sortedWorkspaces input.workspaceRoots)
  have groupKeys := fun kind groups => nodup_ofKind kind (groupCriterion kind) (·.1) (fun _ => rfl)
    (fun _ => rfl) (nodup_sortedEntries groups)
  unfold allCriteria requiredCriteria
  simp only [map_append, ← append_assoc]
  have first := nodup_append_ofKind exhaustive criticalKeys (by decide)
  have second := nodup_append_ofKind first workspaceKeys (by decide)
  have third := nodup_append_ofKind second
    (groupKeys .scopePartition (tallyBy (·.partitionId) candidates)) (by decide)
  exact (nodup_append_ofKind third
    (groupKeys .languageDirectory (tallyBy languageDirectoryId candidates)) (by decide)).1

/-- In a list with distinct keys, a member is all there is under its key. -/
theorem filter_eq_singleton {α κ : Type} [DecidableEq κ] {key : α → κ} {list : List α} {x : α}
    (distinct : (list.map key).Nodup) (member : x ∈ list) :
    (list.filter fun y => key y = key x) = [x] := by
  obtain ⟨front, back, rfl⟩ := append_of_mem member
  rw [map_append, map_cons, nodup_append] at distinct
  obtain ⟨-, right, apart⟩ := distinct
  have inFront : ∀ y ∈ front, ¬ key y = key x := fun y member =>
    apart _ (mem_map_of_mem member) _ mem_cons_self
  have inBack : ∀ y ∈ back, ¬ key y = key x := fun y member same =>
    (nodup_cons.mp right).1 (same ▸ mem_map_of_mem member)
  rw [filter_append, filter_cons_of_pos (by simp),
    filter_eq_nil_iff.mpr fun y member => by simp [inFront y member],
    filter_eq_nil_iff.mpr fun y member => by simp [inBack y member], nil_append]

/-! ## Selection -/

def SelectedFor (reasons : Reasons) (path : RelativePath) (reason : Text) : Prop :=
  ∃ own, reasons.get? path = some own ∧ reason ∈ own

theorem select_selects {path : RelativePath}
    (run : select limits reasons (some path) reason = .ok next) : SelectedFor next path reason := by
  obtain ⟨-, run⟩ := check_bind_eq_ok.mp run
  cases run
  refine ⟨_, (get?_set _ _ _ _).trans (if_pos rfl), ?_⟩
  split_ifs with known
  · exact known
  · exact mem_append_right _ mem_cons_self

theorem select_keeps {path : Option RelativePath}
    (run : select limits reasons path reason = .ok next) {other : RelativePath}
    {old : Text} (selected : SelectedFor reasons other old) : SelectedFor next other old := by
  cases path with
  | none =>
    cases run
    exact selected
  | some path =>
    obtain ⟨-, run⟩ := check_bind_eq_ok.mp run
    cases run
    obtain ⟨own, found, member⟩ := selected
    by_cases same : path = other
    · subst same
      refine ⟨_, (get?_set _ _ _ _).trans (if_pos rfl), ?_⟩
      rw [found, Option.getD_some]
      split_ifs
      · exact member
      · exact mem_append_left _ member
    · exact ⟨own, (get?_set _ _ _ _).trans ((if_neg same).trans found), member⟩

theorem foldlM_selects {criteria : List TargetCoverageCriterion}
    {reasons final : Reasons} (run : criteria.foldlM (selectCriterion limits) reasons = .ok final) :
    (∀ path reason, SelectedFor reasons path reason → SelectedFor final path reason) ∧
      ∀ criterion ∈ criteria, ∀ path, criterion.selectedPath = some path →
        SelectedFor final path (reasonOf criterion) := by
  induction criteria generalizing reasons with
  | nil =>
    cases run
    exact ⟨fun _ _ selected => selected, fun _ member => nomatch member⟩
  | cons criterion criteria ih =>
    rw [foldlM_cons] at run
    obtain ⟨next, step, rest⟩ := bind_eq_ok.mp run
    obtain ⟨keeps, each⟩ := ih rest
    refine ⟨fun path reason selected => keeps _ _ (select_keeps step selected), ?_⟩
    intro other member path isSelected
    obtain rfl | later := mem_cons.mp member
    · rw [selectCriterion, isSelected] at step
      exact keeps _ _ (select_selects step)
    · exact each other later path isSelected

theorem selectTargets_selects {input : NormalizedInput} {candidates : List Candidate} {reasons : Reasons}
    (run : selectTargets limits input sources candidates = .ok reasons) :
    ∀ criterion ∈ requiredCriteria input candidates, ∀ path, criterion.selectedPath = some path →
      SelectedFor reasons path (reasonOf criterion) := by
  unfold selectTargets at run
  split_ifs at run
  all_goals
    obtain ⟨first, -, run⟩ := bind_eq_ok.mp run
    exact (foldlM_selects run).2

end AgentContextLint.TargetSampler
