import AgentContextLint.Core.OrganizationPolicyOrder
import AgentContextLint.Lib.KeyedFold

/-!
# The precedence of organization policies

Policies and overrides meet in the resolution under the keys of their targets. Each layer has at most
one entry for a key, so what the resolution does can be read key by key (`KeyView`): there it is a
run of at most three steps, whose assignment is the one of highest precedence and whose events form
a chain.
-/

namespace AgentContextLint.OrganizationPolicy

open Utf16 Sorting Checked KeyedFold List
open OrderedMap (empty get? get?_set mapValues_set values)
open Option (filter_eq_some_iff map_eq_some_iff)

/-! ## Precedence -/

section Precedence

variable (pack : ValidatedOrganizationPolicyPack)

def sourceOfPolicy (policy : OrganizationPolicyEntry) : OrganizationPolicyAssignmentSource :=
  .organization policy.authority policy.id ((pack.policyLocations.get? policy.id).getD none)

def assignmentOfPolicy (policy : OrganizationPolicyEntry) : ResolvedOrganizationPolicyAssignment where
  source := sourceOfPolicy pack policy
  target := policy.target
  targetKey := policyKey policy
  value := policy.value

def assignmentOfOverride (override : OrganizationPolicyOverride) :
    ResolvedOrganizationPolicyAssignment where
  source := sourceOfOverride override
  target := override.target
  targetKey := overrideKey override
  value := override.value

/-- An enforced policy, else the command line, else the repository, else a default policy. -/
def precedence (policy : Option OrganizationPolicyEntry)
    (repository cli : Option OrganizationPolicyOverride) :
    Option ResolvedOrganizationPolicyAssignment :=
  ((policy.filter fun policy => policy.authority = .enforced).map (assignmentOfPolicy pack)).or <|
  (cli.map assignmentOfOverride).or <|
  (repository.map assignmentOfOverride).or <|
  policy.map (assignmentOfPolicy pack)

/-- Events that follow on each other: the source in front of them, and the source behind. -/
def Chained (inForce : Option OrganizationPolicyAssignmentSource) :
    List OrganizationPolicyResolutionEvent → Option OrganizationPolicyAssignmentSource → Prop
  | [], last => inForce = last
  | event :: rest, last =>
    event.previousSource = inForce ∧
    match event.action with
    | .selected => inForce = none ∧ Chained (some event.source) rest last
    | .overridden => inForce ≠ none ∧ Chained (some event.source) rest last
    | .confirmed => inForce ≠ none ∧ Chained inForce rest last

variable {inForce middle last : Option OrganizationPolicyAssignmentSource}
  {events : List OrganizationPolicyResolutionEvent} {event : OrganizationPolicyResolutionEvent}

theorem Chained.concat (chained : Chained inForce events middle)
    (next : Chained middle [event] last) : Chained inForce (events ++ [event]) last := by
  induction events generalizing inForce with
  | nil =>
    cases chained
    exact next
  | cons first rest ih =>
    obtain ⟨previous, step⟩ := chained
    refine ⟨previous, ?_⟩
    cases action : first.action with
    | selected =>
      rw [action] at step
      exact ⟨step.1, ih step.2⟩
    | overridden =>
      rw [action] at step
      exact ⟨step.1, ih step.2⟩
    | confirmed =>
      rw [action] at step
      exact ⟨step.1, ih step.2⟩

end Precedence

/-! ## The resolution under one key -/

/-- What is known under a key. -/
structure KeyView where
  assignment : Option ResolvedOrganizationPolicyAssignment
  enforced : Option ResolvedOrganizationPolicyAssignment
  events : List OrganizationPolicyResolutionEvent

namespace KeyView

variable (pack : ValidatedOrganizationPolicyPack)

def empty : KeyView := ⟨none, none, []⟩

def applyPolicy (view : KeyView) (policy : OrganizationPolicyEntry) : KeyView where
  assignment := some (assignmentOfPolicy pack policy)
  enforced :=
    if policy.authority = .enforced then some (assignmentOfPolicy pack policy) else view.enforced
  events := view.events ++ [{
    action := .selected
    previousSource := none
    source := sourceOfPolicy pack policy
    targetKey := policyKey policy }]

def applyOverride (view : KeyView) (override : OrganizationPolicyOverride) : KeyView :=
  match view.enforced with
  | some constraint =>
    if valuesEqual constraint.value override.value then
      { view with events := view.events ++ [{
        action := .confirmed
        previousSource := some constraint.source
        source := sourceOfOverride override
        targetKey := overrideKey override }] }
    else view
  | none =>
    { view with
      assignment := some (assignmentOfOverride override)
      events := view.events ++ [{
        action := if view.assignment.isNone then .selected else .overridden
        previousSource := view.assignment.map (·.source)
        source := sourceOfOverride override
        targetKey := overrideKey override }] }

variable {pack} {view : KeyView}

@[simp] theorem applyOverride_enforced (override : OrganizationPolicyOverride) :
    (view.applyOverride override).enforced = view.enforced := by
  unfold applyOverride
  split
  · split_ifs <;> rfl
  · rfl

theorem applyOverride_assignment (override : OrganizationPolicyOverride) :
    (view.applyOverride override).assignment =
      if view.enforced.isSome then view.assignment else some (assignmentOfOverride override) := by
  unfold applyOverride
  split <;> rename_i enforced
  · rw [enforced, Option.isSome_some, if_pos rfl]
    split_ifs <;> rfl
  · rw [enforced]
    rfl

def policed (pack : ValidatedOrganizationPolicyPack) (policy : Option OrganizationPolicyEntry) :
    KeyView := policy.elim empty (empty.applyPolicy pack)

theorem policed_enforced (policy : Option OrganizationPolicyEntry) :
    (policed pack policy).enforced =
      (policy.filter fun policy => policy.authority = .enforced).map (assignmentOfPolicy pack) := by
  cases policy with
  | none => rfl
  | some policy =>
    by_cases enforced : policy.authority = .enforced <;>
      simp [policed, applyPolicy, empty, Option.filter, enforced]

theorem policed_assignment (policy : Option OrganizationPolicyEntry) :
    (policed pack policy).assignment = policy.map (assignmentOfPolicy pack) := by
  cases policy <;> rfl

/-- The steps under a key, one for each layer that has an entry. -/
def run (pack : ValidatedOrganizationPolicyPack) (policy : Option OrganizationPolicyEntry)
    (repository cli : Option OrganizationPolicyOverride) : KeyView :=
  let tracked := repository.elim (policed pack policy) (policed pack policy).applyOverride
  cli.elim tracked tracked.applyOverride

variable {policy : Option OrganizationPolicyEntry} {repository cli : Option OrganizationPolicyOverride}

variable {override : OrganizationPolicyOverride}

theorem run_assignment :
    (run pack policy repository cli).assignment = precedence pack policy repository cli := by
  unfold run precedence
  rw [← policed_enforced, ← policed_assignment]
  have held : (policed pack policy).enforced.isSome = true →
      (policed pack policy).assignment = (policed pack policy).enforced := by
    rw [policed_enforced, policed_assignment]
    cases policy with
    | none => exact nofun
    | some policy =>
      by_cases enforced : policy.authority = .enforced <;> simp [Option.filter, enforced]
  cases constraint : (policed pack policy).enforced with
  | none => cases repository <;> cases cli <;> simp [applyOverride_assignment, constraint]
  | some constraint' =>
    rw [constraint] at held
    cases repository <;> cases cli <;> simp [applyOverride_assignment, constraint, held]

/-! ## Chains -/

/-- The assignment is what the events lead to, and an enforced one is in force. -/
structure Sound (view : KeyView) : Prop where
  chained : Chained none view.events (view.assignment.map (·.source))
  held : ∀ constraint, view.enforced = some constraint → view.assignment = some constraint

theorem sound_policed (policy : Option OrganizationPolicyEntry) : (policed pack policy).Sound where
  chained := by
    cases policy with
    | none => rfl
    | some policy => exact ⟨rfl, rfl, rfl⟩
  held constraint enforced := by
    rw [policed_enforced, map_eq_some_iff] at enforced
    obtain ⟨_, found, rfl⟩ := enforced
    rw [policed_assignment, (filter_eq_some_iff.mp found).1]
    rfl

/-- An override that does not differ from what is enforced carries the chain on. -/
theorem Sound.applyOverride (sound : view.Sound)
    (agrees : ∀ constraint, view.enforced = some constraint → constraint.value = override.value) :
    (view.applyOverride override).Sound := by
  unfold KeyView.applyOverride
  split <;> rename_i enforced
  · have same := agrees _ enforced
    rw [valuesEqual, same, beq_self_eq_true, if_pos rfl]
    refine ⟨sound.chained.concat ?_, sound.held⟩
    rw [sound.held _ enforced]
    exact ⟨rfl, nofun, rfl⟩
  · refine ⟨sound.chained.concat ?_, fun constraint held => ?_⟩
    · cases view.assignment with
      | none => exact ⟨rfl, rfl, rfl⟩
      | some previous => exact ⟨rfl, nofun, rfl⟩
    · rw [enforced] at held
      cases held

/-- No override of the key differs from an enforced policy. -/
def Agree (policy : Option OrganizationPolicyEntry)
    (repository cli : Option OrganizationPolicyOverride) : Prop :=
  ∀ entry, policy = some entry → entry.authority = .enforced →
    ∀ override, repository = some override ∨ cli = some override → entry.value = override.value

theorem sound_run (agree : Agree policy repository cli) : (run pack policy repository cli).Sound := by
  have agrees : ∀ constraint, (policed pack policy).enforced = some constraint →
      ∀ override, repository = some override ∨ cli = some override →
        constraint.value = override.value := by
    intro constraint enforced override given
    rw [policed_enforced, map_eq_some_iff] at enforced
    obtain ⟨entry, found, rfl⟩ := enforced
    obtain ⟨found, enforced⟩ := filter_eq_some_iff.mp found
    exact agree entry found (of_decide_eq_true enforced) override given
  have tracked : (repository.elim (policed pack policy) (policed pack policy).applyOverride).Sound ∧
      (repository.elim (policed pack policy) (policed pack policy).applyOverride).enforced =
        (policed pack policy).enforced := by
    cases repository with
    | none => exact ⟨sound_policed policy, rfl⟩
    | some override =>
      exact ⟨(sound_policed policy).applyOverride fun constraint enforced =>
        agrees constraint enforced override (.inl rfl), applyOverride_enforced override⟩
  unfold run
  cases cli with
  | none => exact tracked.1
  | some override =>
    exact tracked.1.applyOverride fun constraint enforced =>
      agrees constraint (tracked.2 ▸ enforced) override (.inr rfl)

/-! ## Ranks -/

/-- The sources of the events come from one layer after the other, below a rank. -/
structure Ranked (view : KeyView) (rank : Nat) : Prop where
  ordered : view.events.Pairwise fun first second => sourceRank first.source < sourceRank second.source
  below : ∀ event ∈ view.events, sourceRank event.source < rank

theorem Ranked.applyOverride {rank : Nat}
    (ranked : view.Ranked rank) (own : sourceRank (sourceOfOverride override) = rank) :
    (view.applyOverride override).Ranked (rank + 1) := by
  have concat : ∀ event : OrganizationPolicyResolutionEvent,
      event.source = sourceOfOverride override →
      (view.events ++ [event]).Pairwise
        (fun first second => sourceRank first.source < sourceRank second.source) ∧
      ∀ other ∈ view.events ++ [event], sourceRank other.source < rank + 1 := by
    intro event source
    constructor
    · refine pairwise_append.mpr ⟨ranked.ordered, pairwise_singleton _ _, ?_⟩
      intro first member second last
      rw [mem_singleton.mp last, source, own]
      exact ranked.below first member
    · intro other member
      rcases mem_append.mp member with old | last
      · exact Nat.lt_succ_of_lt (ranked.below other old)
      · rw [mem_singleton.mp last, source, own]
        exact Nat.lt_succ_self rank
  unfold KeyView.applyOverride
  split
  · split_ifs
    · exact ⟨(concat _ rfl).1, (concat _ rfl).2⟩
    · exact ⟨ranked.ordered, fun event member => Nat.lt_succ_of_lt (ranked.below event member)⟩
  · exact ⟨(concat _ rfl).1, (concat _ rfl).2⟩

theorem Ranked.mono {rank rank' : Nat} (ranked : view.Ranked rank) (le : rank ≤ rank') :
    view.Ranked rank' :=
  ⟨ranked.ordered, fun event member => Nat.lt_of_lt_of_le (ranked.below event member) le⟩

theorem ranked_policed (policy : Option OrganizationPolicyEntry) : (policed pack policy).Ranked 1 := by
  cases policy with
  | none => exact ⟨.nil, nofun⟩
  | some policy =>
    refine ⟨pairwise_singleton _ _, fun event member => ?_⟩
    rw [mem_singleton.mp member]
    exact Nat.zero_lt_one

theorem ranked_run (tracked : ∀ override, repository = some override →
      OverrideLayer.repository.isLayerOf override.source = true)
    (given : ∀ override, cli = some override → OverrideLayer.cli.isLayerOf override.source = true) :
    (run pack policy repository cli).Ranked 3 := by
  have second : (repository.elim (policed pack policy) (policed pack policy).applyOverride).Ranked 2 := by
    cases repository with
    | none => exact (ranked_policed policy).mono (by decide)
    | some override =>
      refine (ranked_policed policy).applyOverride ?_
      have layer := tracked override rfl
      unfold sourceOfOverride
      cases source : override.source with
      | cli argument => rw [source] at layer; cases layer
      | repository location => rfl
  unfold run
  cases cli with
  | none => exact second.mono (by decide)
  | some override =>
    refine second.applyOverride ?_
    have layer := given override rfl
    unfold sourceOfOverride
    cases source : override.source with
    | cli argument => rfl
    | repository location => rw [source] at layer; cases layer

end KeyView

def ResolutionState.at (state : ResolutionState) (key : Text) : KeyView where
  assignment := state.assignments.get? key
  enforced := state.enforced.get? key
  events := state.events.filter fun event => event.targetKey = key

section Steps

variable {pack : ValidatedOrganizationPolicyPack} {key : Text} (state : ResolutionState)

theorem applyPolicy_miss (policy : OrganizationPolicyEntry) (apart : policyKey policy ≠ key) :
    (applyPolicy pack state policy).at key = state.at key := by
  have apart : ¬ targetKey policy.target = key := apart
  unfold applyPolicy ResolutionState.at
  by_cases enforced : policy.authority = .enforced <;>
    simp [get?_set, apart, enforced]

theorem applyPolicy_hit (policy : OrganizationPolicyEntry) (own : policyKey policy = key) :
    (applyPolicy pack state policy).at key = (state.at key).applyPolicy pack policy := by
  have own : targetKey policy.target = key := own
  unfold applyPolicy ResolutionState.at KeyView.applyPolicy
  by_cases enforced : policy.authority = .enforced <;>
    simp [get?_set, own, enforced, assignmentOfPolicy, sourceOfPolicy, policyKey]

section

variable (override : OrganizationPolicyOverride)

include override

theorem applyOverride_miss
    (apart : overrideKey override ≠ key) : (applyOverride state override).at key = state.at key := by
  have apart : ¬ targetKey override.target = key := apart
  unfold applyOverride ResolutionState.at
  dsimp only
  split
  · split_ifs <;> simp [apart]
  · simp [get?_set, apart]

theorem applyOverride_hit (own : overrideKey override = key)
    : (applyOverride state override).at key = (state.at key).applyOverride override := by
  have own' : targetKey override.target = key := own
  unfold applyOverride ResolutionState.at KeyView.applyOverride
  dsimp only
  rw [own']
  cases constrained : state.enforced.get? key with
  | some constraint =>
    dsimp only
    split_ifs <;> simp [own, constrained]
  | none => simp [get?_set, own, constrained, assignmentOfOverride]

@[simp] theorem applyOverride_enforced :
    (applyOverride state override).enforced = state.enforced := by
  unfold applyOverride
  dsimp only
  split
  · split_ifs <;> rfl
  · rfl

end

def Conflicts (enforced : OrderedMap Text ResolvedOrganizationPolicyAssignment)
    (override : OrganizationPolicyOverride) : Prop :=
  ∃ constraint, enforced.get? (overrideKey override) = some constraint ∧
    constraint.value ≠ override.value

theorem applyOverride_issues (override : OrganizationPolicyOverride) :
    (applyOverride state override).issues = [] ↔
      state.issues = [] ∧ ¬ Conflicts state.enforced override := by
  unfold applyOverride Conflicts overrideKey
  dsimp only
  cases state.enforced.get? (targetKey override.target) with
  | some constraint =>
    by_cases same : constraint.value = override.value <;> simp [valuesEqual, same]
  | none => simp

theorem foldl_applyOverride_issues (overrides : List OrganizationPolicyOverride) :
    (overrides.foldl applyOverride state).issues = [] ↔
      state.issues = [] ∧ ∀ override ∈ overrides, ¬ Conflicts state.enforced override := by
  induction overrides generalizing state with
  | nil => simp
  | cons override rest ih =>
    rw [foldl_cons, ih, applyOverride_issues, applyOverride_enforced, forall_mem_cons, and_assoc]

theorem foldl_applyPolicy_issues (policies : List OrganizationPolicyEntry) :
    (policies.foldl (applyPolicy pack) state).issues = state.issues := by
  induction policies generalizing state with
  | nil => rfl
  | cons policy rest ih => exact ih _

end Steps

/-! ## Whole resolutions -/

section Resolution

variable {pack : ValidatedOrganizationPolicyPack} {repository cli : List OrganizationPolicyOverride}

variable {assignment : ResolvedOrganizationPolicyAssignment}

variable {target : OrganizationPolicyTarget} {key : Text}

def policedState (pack : ValidatedOrganizationPolicyPack) : ResolutionState :=
  pack.document.policies.foldl (applyPolicy pack) ⟨.empty, .empty, [], []⟩

/-- The variables at the end. -/
def resolvedState (pack : ValidatedOrganizationPolicyPack)
    (repository cli : List OrganizationPolicyOverride) : ResolutionState :=
  (repository ++ cli).foldl applyOverride (policedState pack)

/-- What validation promises of a pack and of two layers. -/
structure Distinct (pack : ValidatedOrganizationPolicyPack)
    (repository cli : List OrganizationPolicyOverride) : Prop where
  policyKeys : (pack.document.policies.map policyKey).Nodup
  repositoryKeys : (repository.map overrideKey).Nodup
  cliKeys : (cli.map overrideKey).Nodup
  tracked : ∀ override ∈ repository, OverrideLayer.repository.isLayerOf override.source = true
  given : ∀ override ∈ cli, OverrideLayer.cli.isLayerOf override.source = true

theorem at_policedState (key : Text) (policies : (pack.document.policies.map policyKey).Nodup) :
    (policedState pack).at key = KeyView.policed pack (at? policyKey key pack.document.policies) :=
  view_foldl (ResolutionState.at · key) applyPolicy_miss applyPolicy_hit policies _

/-- The resolution under a key is a run of the entries with this key. -/
theorem at_resolvedState (key : Text) (distinct : Distinct pack repository cli) :
    (resolvedState pack repository cli).at key =
      KeyView.run pack (at? policyKey key pack.document.policies) (at? overrideKey key repository)
        (at? overrideKey key cli) := by
  unfold resolvedState KeyView.run
  rw [foldl_append,
    view_foldl (ResolutionState.at · key) applyOverride_miss applyOverride_hit distinct.cliKeys,
    view_foldl (ResolutionState.at · key) applyOverride_miss applyOverride_hit distinct.repositoryKeys,
    at_policedState key distinct.policyKeys]

/-- An override on a target that an enforced policy gives another value. -/
def Conflict (pack : ValidatedOrganizationPolicyPack) (override : OrganizationPolicyOverride) : Prop :=
  ∃ policy ∈ pack.document.policies, policy.authority = .enforced ∧
    policy.target = override.target ∧ policy.value ≠ override.value

theorem conflicts_iff (policies : (pack.document.policies.map policyKey).Nodup)
    (override : OrganizationPolicyOverride) :
    Conflicts (policedState pack).enforced override ↔ Conflict pack override := by
  have enforced : (policedState pack).enforced.get? (overrideKey override) =
      ((at? policyKey (overrideKey override) pack.document.policies).filter fun policy =>
        policy.authority = .enforced).map (assignmentOfPolicy pack) :=
    (congrArg KeyView.enforced (at_policedState _ policies)).trans (KeyView.policed_enforced _)
  unfold Conflicts Conflict
  simp only [enforced, map_eq_some_iff, filter_eq_some_iff, at?_eq_some policies]
  constructor
  · rintro ⟨_, ⟨policy, ⟨⟨member, key⟩, authority⟩, rfl⟩, differs⟩
    exact ⟨policy, member, of_decide_eq_true authority, targetKey_injective key, differs⟩
  · rintro ⟨policy, member, authority, target, differs⟩
    exact ⟨_, ⟨policy, ⟨⟨member, congrArg targetKey target⟩, decide_eq_true authority⟩, rfl⟩,
      differs⟩

theorem resolvedState_issues (policies : (pack.document.policies.map policyKey).Nodup) :
    (resolvedState pack repository cli).issues = [] ↔
      ∀ override ∈ repository ++ cli, ¬ Conflict pack override := by
  have none : (policedState pack).issues = [] := foldl_applyPolicy_issues _ _
  rw [resolvedState, foldl_applyOverride_issues]
  simp [none, conflicts_iff policies]

theorem agree_of_no_conflict (key : Text) (distinct : Distinct pack repository cli)
    (none : ∀ override ∈ repository ++ cli, ¬ Conflict pack override) :
    KeyView.Agree (at? policyKey key pack.document.policies) (at? overrideKey key repository)
      (at? overrideKey key cli) := by
  intro policy found enforced override given
  obtain ⟨inPack, policyOwn⟩ := (at?_eq_some distinct.policyKeys).mp found
  have own : override ∈ repository ++ cli ∧ overrideKey override = key := by
    rcases given with tracked | given
    · exact ⟨mem_append_left _ (mem_of_at? tracked), key_of_at? tracked⟩
    · exact ⟨mem_append_right _ (mem_of_at? given), key_of_at? given⟩
  by_contra differs
  exact none override own.1
    ⟨policy, inPack, enforced, targetKey_injective (policyOwn.trans own.2.symm), differs⟩

/-! ### The order of the events -/

instance : Std.TransCmp compareEvents :=
  inferInstanceAs (Std.TransCmp (compareLex
    (comparingWith compareUnits fun event : OrganizationPolicyResolutionEvent => event.targetKey)
    (compareLex
      (comparingWith (compare : Nat → Nat → Ordering)
        fun event : OrganizationPolicyResolutionEvent => sourceRank event.source)
      (comparingWith compareUnits
        fun event : OrganizationPolicyResolutionEvent => event.action.text))))

/-- The events of a key are in the order of their layers, and sorting leaves them so. -/
theorem filter_sortBy_compareEvents {events : List OrganizationPolicyResolutionEvent}
    (ordered : (events.filter fun event => event.targetKey = key).Pairwise fun first second =>
      sourceRank first.source < sourceRank second.source) :
    (sortBy compareEvents events).filter (fun event => event.targetKey = key) =
      events.filter fun event => event.targetKey = key := by
  have perm := (sortBy_perm compareEvents events).filter fun event => event.targetKey = key
  have ranks : ((events.filter fun event => event.targetKey = key).map
      (sourceRank ·.source)).Nodup :=
    (pairwise_map.mpr (ordered.imp fun lt => Nat.ne_of_lt lt))
  refine eq_of_sorted_of_perm compareEvents ?_ perm ((sorted_sortBy compareEvents events).filter _) ?_
  · intro first inFirst second inSecond same
    have sameRank := (Ordering.then_eq_eq.mp (Ordering.then_eq_eq.mp same).2).1
    exact inj_on_of_nodup_map ranks (perm.mem_iff.mp inFirst) (perm.mem_iff.mp inSecond)
      (Nat.compare_eq_eq.mp sameRank)
  · refine ordered.imp_of_mem fun {first second} inFirst inSecond lt => ?_
    have sameKey : first.targetKey = second.targetKey :=
      (of_decide_eq_true (mem_filter.mp inFirst).2).trans
        (of_decide_eq_true (mem_filter.mp inSecond).2).symm
    have units : compareUnits first.targetKey second.targetKey = .eq :=
      compareUnits_eq_iff.mpr sameKey
    have ranks : compare (sourceRank first.source) (sourceRank second.source) = .lt :=
      Nat.compare_eq_lt.mpr lt
    rw [compareEvents, units, ranks]
    rfl

/-! ### The assignments -/

/-- The entry of highest precedence for a target. -/
def ruling (pack : ValidatedOrganizationPolicyPack) (repository cli : List OrganizationPolicyOverride)
    (target : OrganizationPolicyTarget) : Option ResolvedOrganizationPolicyAssignment :=
  precedence pack (at? (·.target) target pack.document.policies) (at? (·.target) target repository)
    (at? (·.target) target cli)

def Mentioned (pack : ValidatedOrganizationPolicyPack) (repository cli : List OrganizationPolicyOverride)
    (target : OrganizationPolicyTarget) : Prop :=
  (∃ policy ∈ pack.document.policies, policy.target = target) ∨
    ∃ override ∈ repository ++ cli, override.target = target

theorem resolved_get? (distinct : Distinct pack repository cli) (target : OrganizationPolicyTarget) :
    (resolvedState pack repository cli).assignments.get? (targetKey target) =
      ruling pack repository cli target := by
  have view := congrArg KeyView.assignment (at_resolvedState (targetKey target) distinct)
  rw [KeyView.run_assignment] at view
  have policies := at?_comp (fun _ _ => targetKey_injective)
    (fun policy : OrganizationPolicyEntry => policy.target) target pack.document.policies
  have overrides := at?_comp (fun _ _ => targetKey_injective)
    (fun override : OrganizationPolicyOverride => override.target) target
  rw [ruling, ← policies, ← overrides, ← overrides]
  exact view

theorem ruling_target (found : ruling pack repository cli target = some assignment) :
    assignment.target = target ∧ assignment.targetKey = targetKey target := by
  unfold ruling precedence at found
  simp only [Option.or_eq_some_iff, map_eq_some_iff, filter_eq_some_iff] at found
  rcases found with ⟨policy, ⟨own, _⟩, rfl⟩ | ⟨_, ⟨override, own, rfl⟩ | ⟨_, ⟨override, own, rfl⟩ |
    ⟨_, policy, own, rfl⟩⟩⟩
  all_goals
    have same := key_of_at? own
    exact ⟨same, congrArg targetKey same⟩

theorem precedence_isSome {policy : Option OrganizationPolicyEntry}
    {tracked given : Option OrganizationPolicyOverride} :
    (precedence pack policy tracked given).isSome =
      (policy.isSome || (tracked.isSome || given.isSome)) := by
  cases policy with
  | none => cases tracked <;> cases given <;> rfl
  | some policy =>
    by_cases enforced : policy.authority = .enforced <;> cases tracked <;> cases given <;>
      simp [precedence, Option.filter, enforced]

theorem ruling_isSome :
    (ruling pack repository cli target).isSome = true ↔ Mentioned pack repository cli target := by
  rw [ruling, precedence_isSome, Bool.or_eq_true, Bool.or_eq_true, at?_isSome, at?_isSome, at?_isSome,
    Mentioned]
  simp [mem_append, or_and_right, exists_or]

/-- What a resolution promises: one assignment for each target that is mentioned, by precedence, and
for each target a chain of events that leads to the source of its assignment. -/
structure Precedes (pack : ValidatedOrganizationPolicyPack)
    (repository cli : List OrganizationPolicyOverride) (resolution : OrganizationPolicyResolution) :
    Prop where
  once : (resolution.assignments.map (·.target)).Nodup
  mentioned : ∀ target, target ∈ resolution.assignments.map (·.target) ↔
    Mentioned pack repository cli target
  ruled : ∀ assignment ∈ resolution.assignments,
    ruling pack repository cli assignment.target = some assignment
  keyed : ∀ assignment ∈ resolution.assignments,
    assignment.targetKey = targetKey assignment.target
  chained : ∀ assignment ∈ resolution.assignments,
    Chained none (resolution.events.filter fun event => event.targetKey = assignment.targetKey)
      (some assignment.source)
  accounted : ∀ event ∈ resolution.events, ∃ assignment ∈ resolution.assignments,
    event.targetKey = assignment.targetKey

/-- The output of the variables at the end. -/
def outputOf (state : ResolutionState) : OrganizationPolicyResolution where
  assignments := sortBy (fun left right => compareUnits left.targetKey right.targetKey)
    state.assignments.values
  events := sortBy compareEvents state.events

theorem mem_outputOf {state : ResolutionState} : assignment ∈ (outputOf state).assignments ↔
      ∃ key, state.assignments.get? key = some assignment := by
  rw [outputOf, mem_sortBy, OrderedMap.mem_values]

theorem resolveLayers_eq : resolveLayers pack repository cli =
    if (resolvedState pack repository cli).issues ≠ [] then
      .error (sortIssues (bounded (resolvedState pack repository cli).issues))
    else .ok (outputOf (resolvedState pack repository cli)) := rfl

section

variable (distinct : Distinct pack repository cli)

include distinct

theorem exists_mentioned (known : ((resolvedState pack repository cli).at key).assignment ≠ none ∨
      ((resolvedState pack repository cli).at key).events ≠ []) :
    ∃ target, key = targetKey target ∧ Mentioned pack repository cli target := by
  rw [at_resolvedState key distinct] at known
  cases policy : at? policyKey key pack.document.policies with
  | some entry => exact ⟨entry.target, (key_of_at? policy).symm, .inl ⟨entry, mem_of_at? policy, rfl⟩⟩
  | none =>
    cases tracked : at? overrideKey key repository with
    | some entry => exact ⟨entry.target, (key_of_at? tracked).symm,
        .inr ⟨entry, mem_append_left _ (mem_of_at? tracked), rfl⟩⟩
    | none =>
      cases given : at? overrideKey key cli with
      | some entry => exact ⟨entry.target, (key_of_at? given).symm,
          .inr ⟨entry, mem_append_right _ (mem_of_at? given), rfl⟩⟩
      | none =>
        rw [policy, tracked, given] at known
        exact absurd known (by simp [KeyView.run, KeyView.policed, KeyView.empty])

theorem ruling_of_mem
    (found : (resolvedState pack repository cli).assignments.get? key = some assignment) :
    ruling pack repository cli assignment.target = some assignment ∧
      key = targetKey assignment.target ∧ assignment.targetKey = key := by
  obtain ⟨target, rfl, _⟩ := exists_mentioned distinct
    (.inl (show (resolvedState pack repository cli).assignments.get? key ≠ none by
      rw [found]
      exact nofun))
  rw [resolved_get? distinct] at found
  obtain ⟨rfl, own⟩ := ruling_target found
  exact ⟨found, rfl, own⟩

theorem precedes_outputOf (none : ∀ override ∈ repository ++ cli, ¬ Conflict pack override) :
    Precedes pack repository cli (outputOf (resolvedState pack repository cli)) := by
  have assigned : ∀ target, Mentioned pack repository cli target →
      ∃ assignment ∈ (outputOf (resolvedState pack repository cli)).assignments,
        assignment.target = target ∧ assignment.targetKey = targetKey target := by
    intro target mentioned
    obtain ⟨assignment, found⟩ := Option.isSome_iff_exists.mp (ruling_isSome.mpr mentioned)
    exact ⟨assignment, mem_outputOf.mpr ⟨_, (resolved_get? distinct target).trans found⟩,
      ruling_target found⟩
  refine ⟨?_, fun target => ?_, fun assignment member => ?_, fun assignment member => ?_,
    fun assignment member => ?_, fun event member => ?_⟩
  · refine ((sortBy_perm _ _).map ResolvedOrganizationPolicyAssignment.target).nodup_iff.mpr
      (Nodup.of_map targetKey ?_)
    have keys : ((resolvedState pack repository cli).assignments.values.map (·.target)).map targetKey =
        (resolvedState pack repository cli).assignments.entries.map (·.1) := by
      rw [values, map_map, map_map]
      refine map_congr_left fun entry member => ?_
      exact (ruling_of_mem distinct (OrderedMap.get?_eq_some.mpr member)).2.1.symm
    rw [keys]
    exact (resolvedState pack repository cli).assignments.nodup
  · rw [mem_map]
    constructor
    · rintro ⟨assignment, member, rfl⟩
      obtain ⟨key, found⟩ := mem_outputOf.mp member
      exact ruling_isSome.mp (by rw [(ruling_of_mem distinct found).1]; rfl)
    · intro mentioned
      obtain ⟨assignment, member, own, _⟩ := assigned target mentioned
      exact ⟨assignment, member, own⟩
  · obtain ⟨key, found⟩ := mem_outputOf.mp member
    exact (ruling_of_mem distinct found).1
  · obtain ⟨key, found⟩ := mem_outputOf.mp member
    obtain ⟨_, own, same⟩ := ruling_of_mem distinct found
    exact same.trans own
  · obtain ⟨key, found⟩ := mem_outputOf.mp member
    obtain ⟨_, own, rfl⟩ := ruling_of_mem distinct found
    have view := at_resolvedState assignment.targetKey distinct
    have ranked : ((resolvedState pack repository cli).at assignment.targetKey).Ranked 3 := by
      rw [view]
      exact KeyView.ranked_run (fun override found => distinct.tracked override (mem_of_at? found))
        (fun override found => distinct.given override (mem_of_at? found))
    have sound : ((resolvedState pack repository cli).at assignment.targetKey).Sound := by
      rw [view]
      exact KeyView.sound_run (agree_of_no_conflict assignment.targetKey distinct none)
    have chained := sound.chained
    rw [show ((resolvedState pack repository cli).at assignment.targetKey).assignment = some assignment
      from found] at chained
    rw [outputOf, filter_sortBy_compareEvents ranked.ordered]
    exact chained
  · have known : event ∈ (resolvedState pack repository cli).events := (mem_sortBy _).mp member
    have seen : ((resolvedState pack repository cli).at event.targetKey).events ≠ [] :=
      ne_nil_of_mem (mem_filter.mpr ⟨known, decide_eq_true rfl⟩)
    obtain ⟨target, own, mentioned⟩ := exists_mentioned distinct (.inr seen)
    obtain ⟨assignment, member, _, key⟩ := assigned target mentioned
    exact ⟨assignment, member, own.trans key.symm⟩

end

/-! ### Locations of policies -/

def unplacedSource : OrganizationPolicyAssignmentSource → OrganizationPolicyAssignmentSource
  | .organization authority policyId _ => .organization authority policyId none
  | source => source

def unplacedAssignment (assignment : ResolvedOrganizationPolicyAssignment) :
    ResolvedOrganizationPolicyAssignment :=
  { assignment with source := unplacedSource assignment.source }

def unplacedEvent (event : OrganizationPolicyResolutionEvent) : OrganizationPolicyResolutionEvent :=
  { event with
    previousSource := event.previousSource.map unplacedSource
    source := unplacedSource event.source }

/-- The related location of a conflict is that of the policy. -/
def unplacedIssue (issue : OrganizationPolicyIssue) : OrganizationPolicyIssue :=
  { issue with relatedLocation := none }

/-- What a resolution returns, without the locations of policies. -/
def unplaced : Except (List OrganizationPolicyIssue) OrganizationPolicyResolution →
    Except (List OrganizationPolicyIssue) OrganizationPolicyResolution
  | .error issues => .error (issues.map unplacedIssue)
  | .ok resolution => .ok {
      assignments := resolution.assignments.map unplacedAssignment
      events := resolution.events.map unplacedEvent }

def unplacedState (state : ResolutionState) : ResolutionState where
  assignments := state.assignments.mapValues unplacedAssignment
  enforced := state.enforced.mapValues unplacedAssignment
  events := state.events.map unplacedEvent
  issues := state.issues.map unplacedIssue

theorem policyIdOf_unplacedSource (source : OrganizationPolicyAssignmentSource) :
    policyIdOf (unplacedSource source) = policyIdOf source := by
  cases source <;> rfl

theorem sourceRank_unplacedSource (source : OrganizationPolicyAssignmentSource) :
    sourceRank (unplacedSource source) = sourceRank source := by
  cases source <;> rfl

section Unplaced

variable {state other : ResolutionState} {pack' : ValidatedOrganizationPolicyPack}

theorem applyPolicy_unplaced (same : unplacedState state = unplacedState other)
    (policy : OrganizationPolicyEntry) :
    unplacedState (applyPolicy pack state policy) = unplacedState (applyPolicy pack' other policy) := by
  simp only [unplacedState, ResolutionState.mk.injEq] at same ⊢
  obtain ⟨assignments, enforced, events, issues⟩ := same
  refine ⟨?_, ?_, ?_, issues⟩
  · simp only [applyPolicy, mapValues_set, assignments]
    rfl
  · unfold applyPolicy
    by_cases own : policy.authority = .enforced
    · simp only [own, if_true, mapValues_set, enforced]
      rfl
    · simp only [own, if_false, enforced]
  · simp only [applyPolicy, map_append, events]
    rfl

theorem applyOverride_unplaced (same : unplacedState state = unplacedState other)
    (override : OrganizationPolicyOverride) :
    unplacedState (applyOverride state override) = unplacedState (applyOverride other override) := by
  simp only [unplacedState, ResolutionState.mk.injEq] at same ⊢
  obtain ⟨assignments, enforced, events, issues⟩ := same
  have held := congrArg (get? · (targetKey override.target)) enforced
  have before := congrArg (get? · (targetKey override.target)) assignments
  simp only [OrderedMap.get?_mapValues] at held before
  unfold applyOverride
  cases first : state.enforced.get? (targetKey override.target) with
  | some constraint =>
    rw [first, Option.map_some, eq_comm, map_eq_some_iff] at held
    obtain ⟨constraint', second, alike⟩ := held
    have value : constraint'.value = constraint.value := congrArg (·.value) alike
    have source : unplacedSource constraint'.source = unplacedSource constraint.source :=
      congrArg (·.source) alike
    have owner : policyIdOf constraint'.source = policyIdOf constraint.source := by
      rw [← policyIdOf_unplacedSource, source, policyIdOf_unplacedSource]
    by_cases confirms : valuesEqual constraint.value override.value = true
    · simp [first, second, value, confirms, assignments, enforced, events, issues, unplacedEvent,
        source]
    · simp [first, second, value, owner, confirms, assignments, enforced, events, issues,
        unplacedIssue]
  | none =>
    rw [first, Option.map_none, eq_comm, Option.map_eq_none_iff] at held
    have fresh := congrArg Option.isNone before
    have sources := congrArg (Option.map (·.source)) before
    simp only [Option.isNone_map, Option.map_map] at fresh sources
    have previous : ((state.assignments.get? (targetKey override.target)).map (·.source)).map
        unplacedSource =
          ((other.assignments.get? (targetKey override.target)).map (·.source)).map unplacedSource := by
      rw [Option.map_map, Option.map_map]
      exact sources
    simp [first, held, mapValues_set, assignments, enforced, issues, map_append, events,
      unplacedEvent, fresh, previous]

theorem resolvedState_unplaced (document : pack'.document = pack.document) :
    unplacedState (resolvedState pack' repository cli) =
      unplacedState (resolvedState pack repository cli) := by
  have policed : ∀ (policies : List OrganizationPolicyEntry) (state other : ResolutionState),
      unplacedState state = unplacedState other →
      unplacedState (policies.foldl (applyPolicy pack') state) =
        unplacedState (policies.foldl (applyPolicy pack) other) := by
    intro policies
    induction policies with
    | nil => exact fun _ _ same => same
    | cons policy rest ih => exact fun _ _ same => ih _ _ (applyPolicy_unplaced same policy)
  have overridden : ∀ (overrides : List OrganizationPolicyOverride) (state other : ResolutionState),
      unplacedState state = unplacedState other →
      unplacedState (overrides.foldl applyOverride state) =
        unplacedState (overrides.foldl applyOverride other) := by
    intro overrides
    induction overrides with
    | nil => exact fun _ _ same => same
    | cons override rest ih => exact fun _ _ same => ih _ _ (applyOverride_unplaced same override)
  unfold resolvedState policedState
  rw [document]
  exact overridden _ _ _ (policed _ _ _ rfl)

/-- No comparator reads a location. -/
theorem unplaced_outputOf (state : ResolutionState) :
    unplaced (.ok (outputOf state)) = .ok (outputOf (unplacedState state)) := by
  have assignments : (sortBy (fun left right => compareUnits left.targetKey right.targetKey)
      state.assignments.values).map unplacedAssignment =
        sortBy (fun left right => compareUnits left.targetKey right.targetKey)
          (state.assignments.values.map unplacedAssignment) :=
    map_insertionSort _ _ _ _ fun _ _ _ _ => Iff.rfl
  have events : (sortBy compareEvents state.events).map unplacedEvent =
      sortBy compareEvents (state.events.map unplacedEvent) := by
    refine map_insertionSort _ _ _ _ fun first _ second _ => ?_
    simp [compareEvents, unplacedEvent, sourceRank_unplacedSource]
  simp [unplaced, outputOf, assignments, events, unplacedState, OrderedMap.values_mapValues]

theorem unplaced_sortIssues (issues : List OrganizationPolicyIssue) :
    (sortIssues (bounded issues)).map unplacedIssue =
      sortIssues (bounded (issues.map unplacedIssue)) := by
  unfold sortIssues bounded
  rw [← map_take]
  exact map_insertionSort _ _ _ _ fun _ _ _ _ => Iff.rfl

/-- Locations of the policies are all that a resolution sees of a pack but its document. -/
theorem resolveLayers_unplaced (document : pack'.document = pack.document) :
    unplaced (resolveLayers pack' repository cli) = unplaced (resolveLayers pack repository cli) := by
  have same : unplacedState (resolvedState pack' repository cli) =
      unplacedState (resolvedState pack repository cli) := resolvedState_unplaced document
  have issues := congrArg (·.issues) same
  simp only [unplacedState] at issues
  rw [resolveLayers_eq, resolveLayers_eq]
  by_cases failed : (resolvedState pack repository cli).issues = []
  · rw [failed, map_nil, map_eq_nil_iff] at issues
    rw [if_neg (not_not.mpr failed), if_neg (not_not.mpr issues), unplaced_outputOf, unplaced_outputOf,
      same]
  · have failed' : (resolvedState pack' repository cli).issues ≠ [] := by
      intro none
      rw [none, map_nil, eq_comm, map_eq_nil_iff] at issues
      exact failed issues
    rw [if_pos failed, if_pos failed', unplaced, unplaced, unplaced_sortIssues, unplaced_sortIssues,
      issues]

end Unplaced

end Resolution

/-! ## Accepted resolutions -/

section Accepted

variable {toLowerCase : Text → Text} {options : ResolveOrganizationPolicyOptions}
  {pack : ValidatedOrganizationPolicyPack} {repository cli : List OrganizationPolicyOverride}

/-- What a resolution is given: a pack that validation returned, capabilities that support it, and
layers that validation accepts, with their entries. -/
structure Accepted (toLowerCase : Text → Text) (options : ResolveOrganizationPolicyOptions)
    (pack : ValidatedOrganizationPolicyPack) (repository cli : List OrganizationPolicyOverride) :
    Prop where
  given : options.pack = some pack
  validated : ∃ input untrusted, validateOrganizationPolicyPack toLowerCase input untrusted = .ok pack
  capabilities : (validateCapabilities toLowerCase options.capabilities noProvider).Clean
  supported : capabilityIssues pack
    (validateCapabilities toLowerCase options.capabilities noProvider).value = []
  repository : (validateOverrideLayer toLowerCase (presentOverrideLayer options.repository) .repository
    (validateCapabilities toLowerCase options.capabilities noProvider).value.ruleIds).settled =
      some repository
  cli : (validateOverrideLayer toLowerCase (presentOverrideLayer options.cli) .cli
    (validateCapabilities toLowerCase options.capabilities noProvider).value.ruleIds).settled = some cli

theorem policyKeys_nodup {input : JsValue} {untrusted : ValidateOrganizationPolicyPackOptions}
    (validated : validateOrganizationPolicyPack toLowerCase input untrusted = .ok pack) :
    (pack.document.policies.map policyKey).Nodup := by
  obtain ⟨_, _, state, _, _, _, policies, rfl⟩ := settled_validateDocument.mp
    (validateOrganizationPolicyPack_eq_ok.mp validated).document
  obtain ⟨_, _, _, admissible, read⟩ := settled_validatePolicyArray.mp
    (show _ = some state.policies by rw [policies]; rfl)
  refine ((sortBy_perm _ state.policies).map policyKey).nodup_iff.mpr ?_
  rw [read]
  exact admissible.keys

theorem Accepted.distinct (accepted : Accepted toLowerCase options pack repository cli) :
    Distinct pack repository cli := by
  obtain ⟨input, untrusted, validated⟩ := accepted.validated
  obtain ⟨_, _, _, _, tracked, rfl⟩ := settled_validateOverrideLayer.mp accepted.repository
  obtain ⟨_, _, _, _, given, rfl⟩ := settled_validateOverrideLayer.mp accepted.cli
  exact ⟨policyKeys_nodup validated, (layerEntries_facts tracked).1, (layerEntries_facts given).1,
    (layerEntries_facts tracked).2, (layerEntries_facts given).2⟩

theorem Accepted.resolve (accepted : Accepted toLowerCase options pack repository cli) :
    resolveOrganizationPolicy toLowerCase options = resolveLayers pack repository cli := by
  obtain ⟨cleanRepository, rfl⟩ := settled_eq_some.mp accepted.repository
  obtain ⟨cleanCli, rfl⟩ := settled_eq_some.mp accepted.cli
  have capabilities : (validateCapabilities toLowerCase options.capabilities noProvider).issues = [] :=
    accepted.capabilities
  unfold resolveOrganizationPolicy
  rw [accepted.given]
  dsimp only
  rw [if_neg (not_not.mpr capabilities), if_neg (not_not.mpr accepted.supported), cleanRepository,
    cleanCli]
  exact if_neg (not_not.mpr rfl)

/-- Two arrays with the same members, or no layer twice. -/
def Reordered (layer layer' : JsValue) : Prop :=
  ∃ items items' : List JsValue, presentOverrideLayer layer = .array items ∧
    presentOverrideLayer layer' = .array items' ∧ items.Perm items'

theorem Accepted.reordered {options' : ResolveOrganizationPolicyOptions}
    (accepted : Accepted toLowerCase options pack repository cli)
    (pack' : options'.pack = options.pack)
    (capabilities : options'.capabilities = options.capabilities)
    (tracked : Reordered options.repository options'.repository)
    (given : Reordered options.cli options'.cli) :
    Accepted toLowerCase options' pack repository cli := by
  obtain ⟨_, _, first, second, reordered⟩ := tracked
  obtain ⟨_, _, first', second', reordered'⟩ := given
  refine ⟨pack'.trans accepted.given, accepted.validated, ?_, ?_, ?_, ?_⟩
  · rw [capabilities]
    exact accepted.capabilities
  · rw [capabilities]
    exact accepted.supported
  · rw [capabilities, second]
    exact validateOverrideLayer_perm reordered (first ▸ accepted.repository)
  · rw [capabilities, second']
    exact validateOverrideLayer_perm reordered' (first' ▸ accepted.cli)

/-- A resolution of accepted layers fails exactly if an override conflicts with an enforced policy.
What it returns follows the precedence, does not depend on the order of the overrides, and depends
on that of the policies only where it names their locations. -/
theorem resolveOrganizationPolicy_precedence
    (accepted : Accepted toLowerCase options pack repository cli) :
    ((∃ issues, resolveOrganizationPolicy toLowerCase options = .error issues) ↔
      ∃ override ∈ repository ++ cli, Conflict pack override) ∧
    (∀ resolution, resolveOrganizationPolicy toLowerCase options = .ok resolution →
      Precedes pack repository cli resolution) ∧
    (∀ options' : ResolveOrganizationPolicyOptions, options'.pack = options.pack →
      options'.capabilities = options.capabilities →
      Reordered options.repository options'.repository → Reordered options.cli options'.cli →
      resolveOrganizationPolicy toLowerCase options' = resolveOrganizationPolicy toLowerCase options) ∧
    ∀ (front back : Fields) (policies policies' : List JsValue)
      (untrusted : ValidateOrganizationPolicyPackOptions),
      js "policies" ∉ JsValue.keys front → policies.Perm policies' →
      validateOrganizationPolicyPack toLowerCase (documentWith front back policies) untrusted =
        .ok pack →
      ∃ pack', validateOrganizationPolicyPack toLowerCase (documentWith front back policies')
          untrusted = .ok pack' ∧
        unplaced (resolveOrganizationPolicy toLowerCase { options with pack := some pack' }) =
          unplaced (resolveOrganizationPolicy toLowerCase options) := by
  have distinct := accepted.distinct
  have issues : (resolvedState pack repository cli).issues = [] ↔ _ :=
    resolvedState_issues distinct.policyKeys
  refine ⟨?_, fun resolution resolved => ?_, fun options' samePack capabilities tracked given => ?_,
    fun front back policies policies' untrusted once reordered validated => ?_⟩
  · rw [accepted.resolve, resolveLayers_eq]
    split_ifs with failed
    · rw [ne_eq, issues] at failed
      push Not at failed
      exact ⟨fun _ => failed, fun _ => ⟨_, rfl⟩⟩
    · rw [not_not, issues] at failed
      refine ⟨nofun, ?_⟩
      rintro ⟨override, member, conflict⟩
      exact absurd conflict (failed override member)
  · rw [accepted.resolve, resolveLayers_eq] at resolved
    split_ifs at resolved with failed
    cases resolved
    exact precedes_outputOf distinct (issues.mp (not_not.mp failed))
  · rw [(accepted.reordered samePack capabilities tracked given).resolve, accepted.resolve]
  · obtain ⟨pack', validated', document, origin⟩ :=
      validateOrganizationPolicyPack_perm reordered once validated
    refine ⟨pack', validated', ?_⟩
    have accepted' : Accepted toLowerCase { options with pack := some pack' } pack' repository cli :=
      ⟨rfl, ⟨_, _, validated'⟩, accepted.capabilities, ?_, accepted.repository, accepted.cli⟩
    · rw [accepted'.resolve, accepted.resolve, resolveLayers_unplaced document]
    · have supported := accepted.supported
      unfold capabilityIssues at supported ⊢
      rw [document]
      exact supported

/-! ### A pack with one enforced policy -/

def oneRuleCapabilities : JsValue :=
  .object [(js "engineVersion", .string (js "1.0.0")), (js "ruleIds", .array [.string (js "ACL001")]),
    (js "ruleRegistryVersion", .string (js "1.0.0"))]

def profileTarget : JsValue :=
  .object [(js "kind", .string (js "profile")), (js "profileId", .string (js "gemini-cli"))]

def packDocument (policies : List JsValue) : JsValue :=
  documentWith
    [(js "compatibility", .object [(js "configurationVersion", .number (.integer 1)),
        (js "minimumEngineVersion", .string (js "1.0.0")),
        (js "profileCatalogVersion", .string (js "0.1.0")),
        (js "ruleRegistryVersion", .string (js "1.0.0"))]),
      (js "packId", .string (js "base")), (js "packVersion", .string (js "1.0.0"))]
    [(js "provenance", .object [(js "approvedBy", .string (js "board")),
        (js "approvedSource", .object [(js "path", .string (js "approval.md")),
          (js "sha256", .string (replicate 64 0x30))]),
        (js "reviewedAt", .string (js "2026-01-31")), (js "revision", .null)]),
      (js "recordKind", .string (js "agent-context-organization-policy-pack")),
      (js "schemaVersion", .string (js "0.1.0"))]
    policies

def packOrigin : JsValue :=
  .object [(js "path", .string (js "policy.json")), (js "sha256", .string (replicate 64 0x31))]

def enforcedPolicy : JsValue :=
  .object [(js "authority", .string (js "enforced")), (js "id", .string (js "gemini")),
    (js "target", profileTarget), (js "value", .boolean true)]

def enforcedDocument : JsValue := packDocument [enforcedPolicy]

def enforcedPack : ValidatedOrganizationPolicyPack where
  document := {
    compatibility := { minimumEngineVersion := js "1.0.0", ruleRegistryVersion := js "1.0.0" }
    packId := js "base"
    packVersion := js "1.0.0"
    policies := [{ authority := .enforced, id := js "gemini", target := .profile .geminiCli,
                   value := .boolean true }]
    provenance := {
      approvedBy := js "board"
      approvedPath := js "approval.md"
      approvedSha256 := replicate 64 0x30
      reviewedAt := js "2026-01-31"
      revision := none } }
  origin := { sha256 := replicate 64 0x31, path := js "policy.json" }
  policyLocations := empty.set (js "gemini") none

def cliLayer (value : Bool) : JsValue :=
  .array [.object [(js "id", .string (js "flag")),
    (js "source", .object [(js "argument", .string (js "--gemini")), (js "kind", .string (js "cli"))]),
    (js "target", profileTarget), (js "value", .boolean value)]]

/-- The enforced profile switched off from the command line. -/
theorem resolveOrganizationPolicy_precedence_enforced :
    ∃ issues, resolveOrganizationPolicy id ⟨oneRuleCapabilities, cliLayer false, some enforcedPack,
      .undefined⟩ = .error issues := by
  have validated : validateOrganizationPolicyPack id enforcedDocument ⟨oneRuleCapabilities,
      packOrigin, noProvider⟩ = .ok enforcedPack := by
    decide +kernel
  have accepted : Accepted id ⟨oneRuleCapabilities, cliLayer false, some enforcedPack, .undefined⟩
      enforcedPack [] [{ id := js "flag", source := .cli (js "--gemini"),
                         target := .profile .geminiCli, value := .boolean false }] :=
    ⟨rfl, ⟨_, _, validated⟩, by decide +kernel, by decide +kernel, by decide +kernel,
      by decide +kernel⟩
  refine (resolveOrganizationPolicy_precedence accepted).1.mpr ⟨_, mem_cons_self, _,
    mem_cons_self, rfl, rfl, by decide⟩

/-! ### A pack whose policies have locations -/

def defaultPolicy : JsValue :=
  .object [(js "authority", .string (js "default")), (js "id", .string (js "cursor")),
    (js "target", .object [(js "kind", .string (js "profile")),
      (js "profileId", .string (js "cursor-agent"))]), (js "value", .boolean true)]

/-- The caller knows where the first policy of the document stands. -/
def firstLocated : OrganizationPolicyLocationProvider where
  locate path :=
    if path = js "$.policies[0]" then some ⟨js "policy.json", ⟨20, 20, 1, 4⟩, ⟨80, 80, 1, 64⟩⟩ else none
  locateKey _ _ := .ok none

def resolvedWith (policies : List JsValue) :
    Except (List OrganizationPolicyIssue) OrganizationPolicyResolution :=
  (validateOrganizationPolicyPack id (packDocument policies) ⟨oneRuleCapabilities, packOrigin,
    firstLocated⟩).bind fun pack =>
      resolveOrganizationPolicy id ⟨oneRuleCapabilities, .undefined, some pack, .undefined⟩

/-- Locations are looked up by the index of a policy, so with another order of the same policies
another one of them has the location. -/
theorem resolveOrganizationPolicy_sees_order :
    (resolvedWith [enforcedPolicy, defaultPolicy]).isOk = true ∧
    (resolvedWith [defaultPolicy, enforcedPolicy]).isOk = true ∧
    resolvedWith [defaultPolicy, enforcedPolicy] ≠ resolvedWith [enforcedPolicy, defaultPolicy] := by
  decide +kernel

end Accepted

end AgentContextLint.OrganizationPolicy
