import AgentContextLint.Core.BaselineComparison

/-!
# The order of what a baseline comparison is given

A comparison looks a diagnostic up among entries, declarations and diagnostics that have an
identity in common, and asks of each list only whether it is empty, what its single member is, or
that there are several. So a verdict is the same, by the entry it names, in whatever order the
diagnostics, the entries and the path moves are given (`same_verdictFor`), and then so are the
entries that no verdict consumes.
-/

namespace AgentContextLint.DiagnosticBaseline

open Utf16 Metered DiagnosticValidation BaselineOutput List
open OrderedMap (members_group)
open Option (bind_eq_bind bind_eq_some_iff bind_some)

/-! ## Orders of the parts -/

/-- The same parts, each in an order of its own. -/
structure Rearranged (input other : CompareDiagnosticBaselineInput) : Prop where
  baseline : other.baseline = { input.baseline with entries := other.baseline.entries }
  entries : input.baseline.entries.Perm other.baseline.entries
  diagnostics : input.diagnostics.diagnostics.Perm other.diagnostics.diagnostics
  suppressions : other.diagnostics.suppressions = input.diagnostics.suppressions
  sources : other.sources = input.sources
  classifications : input.classifications.Perm other.classifications
  classified : other.classifications.map (·.diagnosticId) = other.diagnostics.diagnostics.map (·.id)
  engineVersion : other.engineVersion = input.engineVersion
  profileVersions : other.profileVersions = input.profileVersions
  now : other.now = input.now
  pathMoves : input.pathMoves.Perm other.pathMoves

/-- What is compared behind the validation of the input. -/
def compareUnchecked (input : CompareDiagnosticBaselineInput) :
    Option DiagnosticBaselineComparison := do
  let kinds ← classificationMap input.diagnostics.diagnostics input.classifications
  let currentEntries ← input.diagnostics.diagnostics.mapM fun diagnostic =>
    entryFromDiagnostic diagnostic input.now none
  pure (comparisonOf input kinds currentEntries)

variable {result : DiagnosticBaselineComparison}

theorem compareUnchecked_of_compared {checks : BaselineChecks}
    {input : CompareDiagnosticBaselineInput}
    (compared : compareDiagnosticBaseline checks input = .ok result) :
    compareUnchecked input = some result := by
  obtain ⟨-, kinds, common, -, -, currentEntries, entered, rfl⟩ :=
    compareDiagnosticBaseline_eq_ok.mp compared
  rw [compareUnchecked, common.classified, bind_eq_bind, bind_some, entered]
  rfl

/-! ## Entries alike -/

/-- No candidate, one with the same entry, or several. -/
inductive Alike (entries others : List BaselineEntry) :
    List IndexedEntry → List IndexedEntry → Prop
  | none : Alike entries others [] []
  | one {candidate other : IndexedEntry} (same : candidate.entry = other.entry)
      (here : entries[candidate.index]? = some candidate.entry)
      (there : others[other.index]? = some other.entry) : Alike entries others [candidate] [other]
  | many {first second third fourth : IndexedEntry} {rest others' : List IndexedEntry} :
      Alike entries others (first :: second :: rest) (third :: fourth :: others')

theorem alike_of_perm {entries others : List BaselineEntry} {members candidates : List IndexedEntry}
    (perm : (members.map (·.entry)).Perm (candidates.map (·.entry)))
    (here : ∀ candidate ∈ members, entries[candidate.index]? = some candidate.entry)
    (there : ∀ candidate ∈ candidates, others[candidate.index]? = some candidate.entry) :
    Alike entries others members candidates := by
  have lengths := perm.length_eq
  rw [length_map, length_map] at lengths
  rcases members with - | ⟨first, - | ⟨second, rest⟩⟩ <;>
    rcases candidates with - | ⟨third, - | ⟨fourth, restOther⟩⟩ <;>
    simp only [length_cons, length_nil] at lengths <;> try omega
  · exact .none
  · rw [map_singleton, map_singleton, singleton_perm_singleton] at perm
    exact .one perm (here _ mem_cons_self) (there _ mem_cons_self)
  · exact .many

theorem entries_indexedEntries (baseline : BaselineOutput) :
    (indexedEntries baseline).map (·.entry) = baseline.entries := by
  apply ext_getElem?
  intro index
  rw [indexedEntries, getElem?_map, getElem?_mapIdx, Option.map_map]
  cases baseline.entries[index]? <;> rfl

section Verdicts

variable {input other : CompareDiagnosticBaselineInput}
  {currentEntries otherEntries : List BaselineEntry} {candidate candidateOther : IndexedEntry}

theorem alike_filter (rearranged : Rearranged input other) (test : BaselineEntry → Bool) :
    Alike input.baseline.entries other.baseline.entries
      ((indexedEntries input.baseline).filter fun item => test item.entry)
      ((indexedEntries other.baseline).filter fun item => test item.entry) := by
  have contents : ∀ baseline : BaselineOutput, ((indexedEntries baseline).filter fun item =>
      test item.entry).map (·.entry) = baseline.entries.filter test := by
    intro baseline
    conv => rhs; rw [← entries_indexedEntries baseline, filter_map]
    rfl
  refine alike_of_perm ?_ (fun candidate member =>
    mem_indexedEntries.mp (mem_of_mem_filter member)) (fun candidate member =>
    mem_indexedEntries.mp (mem_of_mem_filter member))
  rw [contents, contents]
  exact rearranged.entries.filter test

/-- Two verdicts that say the same, by the entry they name. -/
structure SameVerdict (entries others : List BaselineEntry) (verdict other : Verdict) : Prop where
  status : verdict.status = other.status
  reason : verdict.reason = other.reason
  visible : verdict.visible = other.visible
  entry : verdict.baselineEntryIndex.bind (entries[·]?) =
    other.baselineEntryIndex.bind (others[·]?)

theorem same_shown {entries others : List BaselineEntry} (status : BaselineComparisonStatus)
    (reason : BaselineComparisonReason) :
    SameVerdict entries others (.shown status reason none) (.shown status reason none) :=
  ⟨rfl, rfl, rfl, rfl⟩

theorem same_consume (rearranged : Rearranged input other)
    (same : candidate.entry = candidateOther.entry)
    (here : input.baseline.entries[candidate.index]? = some candidate.entry)
    (there : other.baseline.entries[candidateOther.index]? = some candidateOther.entry)
    (reason : BaselineComparisonReason) :
    SameVerdict input.baseline.entries other.baseline.entries
      (consume (makeLookup input currentEntries) candidate reason)
      (consume (makeLookup other otherEntries) candidateOther reason) := by
  have expiry : expiredReason other.baseline candidateOther.entry other.now =
      expiredReason input.baseline candidate.entry input.now := by
    rw [rearranged.baseline, rearranged.now, same]
    rfl
  have named : (some candidate.index).bind (input.baseline.entries[·]?) =
      (some candidateOther.index).bind (other.baseline.entries[·]?) := by
    rw [bind_some, bind_some, here, there, same]
  simp only [consume, makeLookup, expiry]
  cases expiredReason input.baseline candidate.entry input.now with
  | none => exact ⟨rfl, rfl, rfl, named⟩
  | some found => exact ⟨rfl, rfl, rfl, named⟩

/-- The diagnostics are counted alike. -/
theorem count_map_eq {identity : BaselineEntry → Text} (perm : currentEntries.Perm otherEntries)
    (value : Text) :
    (currentEntries.map identity).count value = (otherEntries.map identity).count value :=
  (perm.map identity).count_eq value

def moved (lookup : Lookup) (current : BaselineEntry) (declarations : List BaselinePathMove)
    (candidates eligible : List IndexedEntry) : Verdict :=
  if declarations ≠ [] then
    match declarations, eligible with
    | [_], [candidate] =>
      if lookup.currentSemantics.count (semanticIdentity current) ≠ 1 then
        .shown .ambiguous .ambiguousPathMove none
      else consume lookup candidate .pathMove
    | _, _ => .shown .ambiguous .ambiguousPathMove none
  else .shown .new (if candidates = [] then .notInBaseline else .pathMoveUnproven) none

theorem moveVerdict_eq (lookup : Lookup) (current : BaselineEntry) : moveVerdict lookup current =
      moved lookup current (lookup.moveDeclarations.members
          (moveIdentity current.path current.ruleId current.semanticFingerprint))
        (lookup.semanticEntries.members (semanticIdentity current))
        ((lookup.semanticEntries.members (semanticIdentity current)).filter fun candidate =>
          (lookup.moveDeclarations.members (moveIdentity current.path current.ruleId
            current.semanticFingerprint)).any fun move => move.fromPath = candidate.entry.path) :=
  rfl

theorem same_moved (rearranged : Rearranged input other)
    (perm : currentEntries.Perm otherEntries) (current : BaselineEntry)
    {declarations declared : List BaselinePathMove} (moves : declarations.Perm declared)
    {candidates candidatesOther eligible eligibleOther : List IndexedEntry}
    (found : Alike input.baseline.entries other.baseline.entries candidates candidatesOther)
    (left : Alike input.baseline.entries other.baseline.entries eligible eligibleOther) :
    SameVerdict input.baseline.entries other.baseline.entries
      (moved (makeLookup input currentEntries) current declarations candidates eligible)
      (moved (makeLookup other otherEntries) current declared candidatesOther eligibleOther) := by
  have counts : (makeLookup input currentEntries).currentSemantics.count (semanticIdentity current) =
      (makeLookup other otherEntries).currentSemantics.count (semanticIdentity current) :=
    count_map_eq perm _
  unfold moved
  rcases declarations with - | ⟨move, - | ⟨second, rest⟩⟩
  · obtain rfl := nil_perm.mp moves
    rw [if_neg (not_not.mpr rfl), if_neg (not_not.mpr rfl)]
    cases found with
    | none => exact same_shown _ _
    | one => exact same_shown _ _
    | many => exact same_shown _ _
  · obtain rfl := singleton_perm.mp moves
    rw [if_pos (cons_ne_nil _ _), if_pos (cons_ne_nil _ _)]
    cases left with
    | none => exact same_shown _ _
    | many => exact same_shown _ _
    | one same here there =>
      dsimp only
      rw [counts]
      split_ifs with alone
      · exact same_shown _ _
      · exact same_consume rearranged same here there _
  · obtain ⟨third, fourth, restOther, rfl⟩ : ∃ third fourth restOther,
        declared = third :: fourth :: restOther := by
      have lengths := moves.length_eq
      rcases declared with - | ⟨third, - | ⟨fourth, restOther⟩⟩
      · exact absurd lengths (by simp)
      · exact absurd lengths (by simp)
      · exact ⟨third, fourth, restOther, rfl⟩
    exact same_shown _ _

theorem same_moveVerdict (rearranged : Rearranged input other)
    (perm : currentEntries.Perm otherEntries) (current : BaselineEntry) :
    SameVerdict input.baseline.entries other.baseline.entries
      (moveVerdict (makeLookup input currentEntries) current)
      (moveVerdict (makeLookup other otherEntries) current) := by
  have moves : ((makeLookup input currentEntries).moveDeclarations.members (moveIdentity
      current.path current.ruleId current.semanticFingerprint)).Perm
      ((makeLookup other otherEntries).moveDeclarations.members (moveIdentity current.path
        current.ruleId current.semanticFingerprint)) := by
    rw [makeLookup, makeLookup, members_group, members_group]
    exact rearranged.pathMoves.filter _
  rw [moveVerdict_eq, moveVerdict_eq]
  refine same_moved rearranged perm current moves ?_ ?_
  · rw [makeLookup, makeLookup, members_group, members_group]
    exact alike_filter rearranged fun entry => semanticIdentity entry = semanticIdentity current
  · obtain ⟨declared, here, there⟩ : ∃ declared : RelativePath → Bool,
        (∀ path, ((makeLookup input currentEntries).moveDeclarations.members (moveIdentity
          current.path current.ruleId current.semanticFingerprint)).any
            (fun move => decide (move.fromPath = path)) = declared path) ∧
        ∀ path, ((makeLookup other otherEntries).moveDeclarations.members (moveIdentity
          current.path current.ruleId current.semanticFingerprint)).any
            (fun move => decide (move.fromPath = path)) = declared path :=
      ⟨_, fun _ => rfl, fun _ => moves.symm.any_eq⟩
    simp only [here, there]
    rw [makeLookup, makeLookup]
    simp only [members_group, filter_filter]
    exact alike_filter rearranged fun entry =>
      declared entry.path && decide (semanticIdentity entry = semanticIdentity current)

theorem same_incompatible (reason : BaselineEntry → BaselineComparisonReason) (same : candidate.entry = candidateOther.entry)
    (here : input.baseline.entries[candidate.index]? = some candidate.entry)
    (there : other.baseline.entries[candidateOther.index]? = some candidateOther.entry) :
    SameVerdict input.baseline.entries other.baseline.entries
      (.shown .incompatible (reason candidate.entry) (some candidate.index))
      (.shown .incompatible (reason candidateOther.entry) (some candidateOther.index)) := by
  refine ⟨rfl, congrArg reason same, rfl, ?_⟩
  exact here.trans (same ▸ there.symm)

section

variable (rearranged : Rearranged input other)

include rearranged

theorem same_nearVerdict (perm : currentEntries.Perm otherEntries) (current : BaselineEntry) :
    SameVerdict input.baseline.entries other.baseline.entries
      (nearVerdict (makeLookup input currentEntries) current)
      (nearVerdict (makeLookup other otherEntries) current) := by
  have near : Alike input.baseline.entries other.baseline.entries
      ((makeLookup input currentEntries).nearEntries.members (nearIdentity current))
      ((makeLookup other otherEntries).nearEntries.members (nearIdentity current)) := by
    rw [makeLookup, makeLookup, members_group, members_group]
    exact alike_filter rearranged fun entry => nearIdentity entry = nearIdentity current
  unfold nearVerdict
  generalize (makeLookup input currentEntries).nearEntries.members (nearIdentity current) = members
    at near
  generalize (makeLookup other otherEntries).nearEntries.members (nearIdentity current) = others
    at near
  cases near with
  | none => exact same_moveVerdict rearranged perm current
  | one same here there =>
    exact same_incompatible (incompatibilityReason · current) same here there
  | many => exact same_shown _ _

theorem globalReason_eq :
    (makeLookup other otherEntries).globalReason = (makeLookup input currentEntries).globalReason := by
  have engine : other.baseline.engineVersion = input.baseline.engineVersion := by
    rw [rearranged.baseline]
  have profiles : other.baseline.profileVersions = input.baseline.profileVersions := by
    rw [rearranged.baseline]
  simp [makeLookup, engine, profiles, rearranged.engineVersion, rearranged.profileVersions]

theorem same_lintVerdict (perm : currentEntries.Perm otherEntries) (current : BaselineEntry) :
    SameVerdict input.baseline.entries other.baseline.entries
      (lintVerdict (makeLookup input currentEntries) current)
      (lintVerdict (makeLookup other otherEntries) current) := by
  have exact : Alike input.baseline.entries other.baseline.entries
      ((makeLookup input currentEntries).exactEntries.members (matchIdentity current))
      ((makeLookup other otherEntries).exactEntries.members (matchIdentity current)) := by
    rw [makeLookup, makeLookup, members_group, members_group]
    exact alike_filter rearranged fun entry => matchIdentity entry = matchIdentity current
  have counts : (makeLookup input currentEntries).currentIdentities.count (matchIdentity current) =
      (makeLookup other otherEntries).currentIdentities.count (matchIdentity current) :=
    count_map_eq perm _
  have reasons : (makeLookup other otherEntries).globalReason =
      (makeLookup input currentEntries).globalReason := globalReason_eq rearranged
  unfold lintVerdict
  rw [reasons, counts]
  cases (makeLookup input currentEntries).globalReason with
  | some reason => exact same_shown _ _
  | none =>
    dsimp only
    generalize (makeLookup input currentEntries).exactEntries.members (matchIdentity current) =
      members at exact
    generalize (makeLookup other otherEntries).exactEntries.members (matchIdentity current) =
      others at exact
    cases exact with
    | none => exact same_nearVerdict rearranged perm current
    | many => exact same_shown _ _
    | one same here there =>
      dsimp only
      split_ifs with alone
      · exact same_consume rearranged same here there _
      · exact same_shown _ _

theorem same_verdictFor (perm : currentEntries.Perm otherEntries)
    (kind : Option BaselineDiagnosticKind) (current : BaselineEntry) :
    SameVerdict input.baseline.entries other.baseline.entries
      (verdictFor (makeLookup input currentEntries) kind current)
      (verdictFor (makeLookup other otherEntries) kind current) := by
  unfold verdictFor
  split
  · exact same_lintVerdict rearranged perm current
  · exact same_shown _ _
  · exact same_shown _ _
  · exact same_shown _ _

end

end Verdicts

variable {input other : CompareDiagnosticBaselineInput}
  {kinds : OrderedMap Text BaselineDiagnosticKind}

/-! ## The diagnostics in another order -/

theorem mapM_perm {α β : Type} {f : α → Option β} {as others : List α} {bs : List β}
    (perm : as.Perm others) (mapped : as.mapM f = some bs) :
    ∃ values, others.mapM f = some values ∧ bs.Perm values := by
  obtain ⟨values, made, permuted⟩ := perm_comp_forall₂ perm.symm (mapM_eq_some.mp mapped)
  exact ⟨values, mapM_eq_some.mpr made, permuted.symm⟩

theorem classified_of_map {diagnostics : List Diagnostic}
    {classifications : List BaselineDiagnosticClassification}
    (classified : classificationMap diagnostics classifications = some kinds)
    {classification : BaselineDiagnosticClassification} (member : classification ∈ classifications) :
    kinds.get? classification.diagnosticId = some classification.kind := by
  unfold classificationMap at classified
  split_ifs at classified with agree
  cases classified
  exact get?_foldl_set (·.diagnosticId) (·.kind) (agree.1 ▸ agree.2) member _

theorem kinds_eq {kinds otherKinds : OrderedMap Text BaselineDiagnosticKind}
    (rearranged : Rearranged input other)
    (classified : classificationMap input.diagnostics.diagnostics input.classifications =
      some kinds)
    (classifiedOther : classificationMap other.diagnostics.diagnostics other.classifications =
      some otherKinds) {diagnostic : Diagnostic}
    (member : diagnostic ∈ other.diagnostics.diagnostics) :
    kinds.get? diagnostic.id = otherKinds.get? diagnostic.id := by
  have listed : diagnostic.id ∈ other.classifications.map (·.diagnosticId) := by
    rw [rearranged.classified]
    exact mem_map_of_mem member
  obtain ⟨classification, found, same⟩ := mem_map.mp listed
  rw [← same, classified_of_map classifiedOther found]
  exact classified_of_map classified (rearranged.classifications.mem_iff.mpr found)

theorem exists_classificationMap (rearranged : Rearranged input other)
    (classified : classificationMap input.diagnostics.diagnostics input.classifications =
      some kinds) :
    ∃ otherKinds, classificationMap other.diagnostics.diagnostics other.classifications =
      some otherKinds := by
  have distinct := (rearranged.diagnostics.map (·.id)).nodup_iff.mp (classificationMap_ids classified)
  exact ⟨_, if_pos ⟨rearranged.classified, distinct⟩⟩

/-! ## Outcomes -/

/-- Both say the same of a diagnostic, by the entry they name. -/
structure SameOutcome (input other : CompareDiagnosticBaselineInput)
    (comparison reported : BaselineDiagnosticComparison) : Prop where
  diagnosticId : comparison.diagnosticId = reported.diagnosticId
  status : comparison.status = reported.status
  reason : comparison.reason = reported.reason
  visible : comparison.visible = reported.visible
  entry : comparison.baselineEntryIndex.bind (input.baseline.entries[·]?) =
    reported.baselineEntryIndex.bind (other.baseline.entries[·]?)

def IsStale (input : CompareDiagnosticBaselineInput) (result : DiagnosticBaselineComparison)
    (entry : BaselineEntry) (reason : BaselineStaleReason) : Prop :=
  ∃ stale ∈ result.staleEntries,
    input.baseline.entries[stale.baselineEntryIndex]? = some entry ∧ stale.reason = reason

/-- Each diagnostic has the same outcome in both, and the same entries are stale. -/
structure SameOutcomes (input other : CompareDiagnosticBaselineInput)
    (result otherResult : DiagnosticBaselineComparison) : Prop where
  diagnostics : ∀ (index place : Nat) (diagnostic : Diagnostic),
    input.diagnostics.diagnostics[index]? = some diagnostic →
    other.diagnostics.diagnostics[place]? = some diagnostic →
    ∃ comparison reported, result.diagnostics[index]? = some comparison ∧
      otherResult.diagnostics[place]? = some reported ∧
      SameOutcome input other comparison reported
  stale : ∀ entry reason, IsStale input result entry reason ↔ IsStale other otherResult entry reason

section Outcomes

variable {input other : CompareDiagnosticBaselineInput}
  {kinds otherKinds : OrderedMap Text BaselineDiagnosticKind}
  {currentEntries otherEntries : List BaselineEntry} {diagnostic : Diagnostic} {index place : Nat}
  {entry : BaselineEntry}

theorem comparisonOf_getElem? {index : Nat} {current : BaselineEntry}
    (here : input.diagnostics.diagnostics[index]? = some diagnostic)
    (entry : currentEntries[index]? = some current) :
    (comparisonOf input kinds currentEntries).diagnostics[index]? =
      some (reportOf (makeLookup input currentEntries) kinds (index, diagnostic, current)) := by
  have listed : (comparedItems input.diagnostics.diagnostics currentEntries)[index]? =
      some (index, diagnostic, current) :=
    comparedItems_getElem?.mpr ⟨rfl, here, entry⟩
  rw [comparisonOf_diagnostics, getElem?_map, listed]
  rfl

/-- Two comparisons of the same diagnostics and entries that judge alike. -/
structure Paired (input other : CompareDiagnosticBaselineInput)
    (kinds otherKinds : OrderedMap Text BaselineDiagnosticKind)
    (currentEntries otherEntries : List BaselineEntry) : Prop where
  diagnostics : input.diagnostics.diagnostics.Perm other.diagnostics.diagnostics
  entries : input.baseline.entries.Perm other.baseline.entries
  now : other.now = input.now
  entered : (input.diagnostics.diagnostics.mapM fun diagnostic =>
    entryFromDiagnostic diagnostic input.now none) = some currentEntries
  enteredOther : (other.diagnostics.diagnostics.mapM fun diagnostic =>
    entryFromDiagnostic diagnostic other.now none) = some otherEntries
  verdict : ∀ diagnostic ∈ input.diagnostics.diagnostics, ∀ current,
    SameVerdict input.baseline.entries other.baseline.entries
      (verdictFor (makeLookup input currentEntries) (kinds.get? diagnostic.id) current)
      (verdictFor (makeLookup other otherEntries) (otherKinds.get? diagnostic.id) current)
  expiry : ∀ entry, expiredReason other.baseline entry other.now =
    expiredReason input.baseline entry input.now

theorem SameVerdict.symm {entries others : List BaselineEntry} {verdict judged : Verdict}
    (same : SameVerdict entries others verdict judged) : SameVerdict others entries judged verdict :=
  ⟨same.status.symm, same.reason.symm, same.visible.symm, same.entry.symm⟩

theorem Paired.symm (paired : Paired input other kinds otherKinds currentEntries otherEntries) :
    Paired other input otherKinds kinds otherEntries currentEntries where
  diagnostics := paired.diagnostics.symm
  entries := paired.entries.symm
  now := paired.now.symm
  entered := paired.enteredOther
  enteredOther := paired.entered
  verdict diagnostic member current :=
    (paired.verdict diagnostic (paired.diagnostics.mem_iff.mpr member) current).symm
  expiry entry := (paired.expiry entry).symm

theorem paired_of_rearranged (rearranged : Rearranged input other)
    (classified : classificationMap input.diagnostics.diagnostics input.classifications =
      some kinds)
    (classifiedOther : classificationMap other.diagnostics.diagnostics other.classifications =
      some otherKinds) (entered : (input.diagnostics.diagnostics.mapM fun diagnostic =>
      entryFromDiagnostic diagnostic input.now none) = some currentEntries)
    (enteredOther : (other.diagnostics.diagnostics.mapM fun diagnostic =>
      entryFromDiagnostic diagnostic other.now none) = some otherEntries)
    (perm : currentEntries.Perm otherEntries) :
    Paired input other kinds otherKinds currentEntries otherEntries where
  diagnostics := rearranged.diagnostics
  entries := rearranged.entries
  now := rearranged.now
  entered := entered
  enteredOther := enteredOther
  verdict := by
    intro diagnostic member current
    rw [kinds_eq rearranged classified classifiedOther (rearranged.diagnostics.mem_iff.mp member)]
    exact same_verdictFor rearranged perm _ current
  expiry := by
    intro entry
    rw [rearranged.baseline, rearranged.now]
    rfl

section

variable (paired : Paired input other kinds otherKinds currentEntries otherEntries)

include paired

/-- A diagnostic has the same current entry at its places. -/
theorem Paired.current (here : input.diagnostics.diagnostics[index]? = some diagnostic)
    (there : other.diagnostics.diagnostics[place]? = some diagnostic) :
    ∃ current, currentEntries[index]? = some current ∧ otherEntries[place]? = some current := by
  obtain ⟨current, found, made⟩ := mapM_some_getElem? paired.entered here
  obtain ⟨currentOther, foundOther, madeOther⟩ := mapM_some_getElem? paired.enteredOther there
  rw [paired.now, made] at madeOther
  cases madeOther
  exact ⟨current, found, foundOther⟩

theorem Paired.outcome (here : input.diagnostics.diagnostics[index]? = some diagnostic)
    (there : other.diagnostics.diagnostics[place]? = some diagnostic) :
    ∃ comparison reported,
      (comparisonOf input kinds currentEntries).diagnostics[index]? = some comparison ∧
      (comparisonOf other otherKinds otherEntries).diagnostics[place]? = some reported ∧
      SameOutcome input other comparison reported := by
  obtain ⟨current, found, foundOther⟩ := paired.current here there
  have same := paired.verdict diagnostic (mem_of_getElem? here) current
  exact ⟨_, _, comparisonOf_getElem? here found, comparisonOf_getElem? there foundOther,
    rfl, same.status, same.reason, same.visible, same.entry⟩

theorem Paired.consumes (distinct : input.baseline.entries.Nodup)
    (here : input.baseline.entries[index]? = some entry)
    (there : other.baseline.entries[place]? = some entry)
    (consumed : ∃ reported ∈ (comparisonOf other otherKinds otherEntries).diagnostics,
      Consumes reported place) :
    ∃ comparison ∈ (comparisonOf input kinds currentEntries).diagnostics,
      Consumes comparison index := by
  obtain ⟨reported, member, status, named⟩ := consumed
  obtain ⟨position, diagnostic, current, listed, placed, rfl⟩ := mem_comparisonOf.mp member
  obtain ⟨own, ownPlace⟩ := mem_iff_getElem?.mp
    (paired.diagnostics.mem_iff.mpr (mem_of_getElem? listed))
  obtain ⟨comparison, report, found, reportFound, same⟩ := paired.outcome ownPlace listed
  rw [comparisonOf_getElem? listed placed, Option.some.injEq] at reportFound
  subst reportFound
  have points := same.entry
  rw [named, bind_some, there, bind_eq_some_iff] at points
  obtain ⟨entryIndex, indexed, points⟩ := points
  obtain rfl : entryIndex = index := by
    obtain ⟨bound, value⟩ := List.getElem?_eq_some_iff.mp points
    obtain ⟨boundIndex, valueIndex⟩ := List.getElem?_eq_some_iff.mp here
    exact (distinct.getElem_inj_iff).mp (value.trans valueIndex.symm)
  exact ⟨comparison, mem_of_getElem? found, same.status ▸ status, indexed⟩

theorem Paired.stale (distinct : input.baseline.entries.Nodup) {reason : BaselineStaleReason}
    (stale : IsStale input (comparisonOf input kinds currentEntries) entry reason) :
    IsStale other (comparisonOf other otherKinds otherEntries) entry reason := by
  obtain ⟨_, member, here, rfl⟩ := stale
  obtain ⟨item, listed, unconsumed, rfl⟩ := mem_staleEntries.mp member
  change input.baseline.entries[item.index]? = some entry at here
  rw [mem_indexedEntries, here, Option.some.injEq] at listed
  obtain ⟨place, there⟩ := mem_iff_getElem?.mp
    (paired.entries.mem_iff.mp (mem_of_getElem? here))
  refine ⟨staleEntry other.baseline other.now ⟨entry, place⟩, ?_, there, ?_⟩
  · exact mem_staleEntries.mpr ⟨⟨entry, place⟩, mem_indexedEntries.mpr there,
      fun consumed => unconsumed (paired.consumes distinct here there consumed), rfl⟩
  · simp [staleEntry, paired.expiry, listed]

theorem Paired.outcomes (distinct : input.baseline.entries.Nodup) :
    SameOutcomes input other (comparisonOf input kinds currentEntries)
      (comparisonOf other otherKinds otherEntries) where
  diagnostics _ _ _ := paired.outcome
  stale _ _ := ⟨paired.stale distinct, paired.symm.stale (paired.entries.nodup_iff.mp distinct)⟩

end

end Outcomes

/-! ## What is accepted in the other order -/

theorem nodup_of_ascending {values : List Text}
    (ascending : ((values.zip values.tail).all fun pair => isBefore pair.1 pair.2) = true) :
    values.Nodup := by
  have chain : values.IsChain (· < ·) := by
    induction values with
    | nil => exact .nil
    | cons first rest ih =>
      cases rest with
      | nil => exact .singleton _
      | cons second others =>
        rw [tail_cons, zip_cons_cons, all_cons, Bool.and_eq_true] at ascending
        exact .cons_cons (of_decide_eq_true ascending.1) (ih ascending.2)
  refine (isChain_iff_pairwise.mp chain).imp ?_
  rintro first _ before rfl
  exact List.lt_irrefl first before

/-- An accepted baseline has no entry twice. -/
theorem nodup_of_valid {json : BaselineOutput → Bool} {baseline : BaselineOutput}
    (valid : validateBaselineOutput json baseline = true) : baseline.entries.Nodup := by
  rw [validateBaselineOutput, Bool.and_eq_true] at valid
  exact (nodup_of_ascending valid.2).of_map _

section Acceptance

variable {input other : CompareDiagnosticBaselineInput} {checks : BaselineChecks}
  {sources : List SourceDocument} {records : RecordChecks}

theorem validateMoves_perm {moves others : List BaselinePathMove} (perm : moves.Perm others) :
    validateMoves others = validateMoves moves := by
  rw [validateMoves, validateMoves, perm.length_eq, perm.all_eq]

theorem validateSuppression_perm {fingerprints others : List Text} (perm : fingerprints.Perm others) :
    validateSuppression records sources others = validateSuppression records sources fingerprints := by
  funext suppression
  simp [validateSuppression, perm.mem_iff]

/-- The order of the diagnostics matters to the limits on the JSON text only. -/
theorem validateDiagnosticBundle_perm
    {bundle others : DiagnosticBundle} (perm : bundle.diagnostics.Perm others.diagnostics)
    (suppressions : others.suppressions = bundle.suppressions)
    (json : records.json others sources = true)
    (accepted : validateDiagnosticBundle records sources bundle = true) :
    validateDiagnosticBundle records sources others = true := by
  have distinct : (entityIds others).Nodup ↔ (entityIds bundle).Nodup := by
    rw [entityIds, entityIds, suppressions]
    exact ((perm.flatMap_right diagnosticEntityIds).append_right _).nodup_iff.symm
  simp only [validateDiagnosticBundle, Bool.and_eq_true, decide_eq_true_eq] at accepted ⊢
  rw [suppressions, distinct, ← perm.length_eq, ← perm.all_eq,
    validateSuppression_perm (perm.map (·.pathFingerprint))]
  obtain ⟨⟨⟨⟨⟨⟨-, registry⟩, bounded⟩, diagnostics⟩, few⟩, suppressed⟩, ids⟩ := accepted
  exact ⟨⟨⟨⟨⟨⟨json, registry⟩, bounded⟩, diagnostics⟩, few⟩, suppressed⟩, ids⟩

theorem Common.rearranged (rearranged : Rearranged input other)
    {kinds otherKinds : OrderedMap Text BaselineDiagnosticKind}
    (common : Common checks input.diagnostics input.sources input.classifications
      input.engineVersion input.profileVersions kinds)
    (classified : classificationMap other.diagnostics.diagnostics other.classifications =
      some otherKinds) (json : checks.records.json other.diagnostics other.sources = true) :
    Common checks other.diagnostics other.sources other.classifications other.engineVersion
      other.profileVersions otherKinds where
  bundle := by
    rw [rearranged.sources] at json ⊢
    exact validateDiagnosticBundle_perm rearranged.diagnostics rearranged.suppressions json
      common.bundle
  classified := classified
  engine := rearranged.engineVersion ▸ common.engine
  profiles := rearranged.profileVersions ▸ common.profiles

end Acceptance

variable {diagnostics others : List Diagnostic}

/-- In another order of the diagnostics, the entries and the path moves, every diagnostic has the
same outcome and the same entries are stale; and only a baseline that is refused for the order of its
entries, or the limits on the JSON text, can stop the other comparison. -/
theorem comparison_independent_of_order {checks : BaselineChecks}
    {input other : CompareDiagnosticBaselineInput} {result : DiagnosticBaselineComparison}
    (compared : compareDiagnosticBaseline checks input = .ok result)
    (rearranged : Rearranged input other) :
    ∃ otherResult, compareUnchecked other = some otherResult ∧
      SameOutcomes input other result otherResult ∧
      (∀ accepted, compareDiagnosticBaseline checks other = .ok accepted →
        accepted = otherResult) ∧
      (validateBaselineOutput checks.output other.baseline = true →
        checks.records.json other.diagnostics other.sources = true →
        compareDiagnosticBaseline checks other = .ok otherResult) := by
  obtain ⟨valid, kinds, common, now, moves, currentEntries, entered, rfl⟩ :=
    compareDiagnosticBaseline_eq_ok.mp compared
  obtain ⟨otherKinds, classified⟩ := exists_classificationMap rearranged common.classified
  obtain ⟨otherEntries, enteredOther, perm⟩ := mapM_perm rearranged.diagnostics entered
  rw [← rearranged.now] at enteredOther
  have paired := paired_of_rearranged rearranged common.classified classified entered enteredOther
    perm
  have unchecked : compareUnchecked other = some (comparisonOf other otherKinds otherEntries) := by
    rw [compareUnchecked, classified, bind_eq_bind, bind_some, enteredOther]
    rfl
  refine ⟨_, unchecked, paired.outcomes (nodup_of_valid valid), ?_, ?_⟩
  · intro accepted comparedOther
    exact Option.some.inj ((compareUnchecked_of_compared comparedOther).symm.trans unchecked)
  · intro validOther json
    exact compareDiagnosticBaseline_eq_ok.mpr ⟨validOther, otherKinds,
      common.rearranged rearranged classified json, rearranged.now ▸ now,
      validateMoves_perm rearranged.pathMoves ▸ moves, otherEntries, enteredOther, rfl⟩

theorem rearranged_comparisonOver {baseline otherBaseline : List Diagnostic}
    {moves otherMoves : List BaselinePathMove} (entries : baseline.Perm otherBaseline)
    (perm : diagnostics.Perm others) (pathMoves : moves.Perm otherMoves) :
    Rearranged (comparisonOver baseline diagnostics moves)
      (comparisonOver otherBaseline others otherMoves) where
  baseline := rfl
  entries := entries.filterMap _
  diagnostics := perm
  suppressions := rfl
  sources := rfl
  classifications := perm.map _
  classified := map_map
  engineVersion := rfl
  profileVersions := rfl
  now := rfl
  pathMoves := pathMoves

/-- Two diagnostics, two entries and two moves, each also the other way round. -/
theorem comparison_independent_of_order_swapped :
    let other := comparisonOver [diagnosticAt "d2" "ACL102" "b", diagnosticAt "d1" "ACL101" "a"]
      [diagnosticAt "d2" "ACL102" "c", diagnosticAt "d1" "ACL101" "z"] [moveOf "x" "y", moveOf "b" "c"]
    ∃ result otherResult, compareDiagnosticBaseline everyCheck movedInput = .ok result ∧
      result.diagnostics.map (·.reason) = [.pathMoveUnproven, .pathMove] ∧
      compareUnchecked other = some otherResult ∧
      SameOutcomes movedInput other result otherResult := by
  intro other
  obtain ⟨result, compared, facts⟩ := eq_ok_of_map compared_movedInput
  obtain ⟨otherResult, unchecked, same, -⟩ := comparison_independent_of_order compared
    (rearranged_comparisonOver (.swap ..) (.swap ..) (.swap ..))
  exact ⟨result, otherResult, compared, (Prod.mk.inj facts).1, unchecked, same⟩

end AgentContextLint.DiagnosticBaseline
