import AgentContextLint.Core.OrganizationPolicyValidation

/-!
# The order of policies and overrides

The JSON boundary walks a value with a stack. What it accepts is counted by `Fits`, which adds up
over the members of an array, so a reordered array is accepted with the array
(`Fits.perm`). A reordered layer of overrides is then validated to the same entries, and a pack with
reordered policies to the same document.
-/

namespace AgentContextLint.OrganizationPolicy

open Utf16 Sorting Checked List
open Admitted (Admissible empty)

variable (toLowerCase : Text → Text)

/-! ## The JSON boundary -/

def childValues (value : JsValue) : List JsValue :=
  if (nodeIssues toLowerCase noProvider [] value).2 then (children [] value).map (·.2) else []

/-- Nothing is said of a node by itself. -/
def NodeClean (value : JsValue) : Prop := (nodeIssues toLowerCase noProvider [] value).1 = []

/-- A stack without issues, with the numbers of values and bytes on it. -/
inductive Fits : List JsValue → (values bytes : Nat) → Prop
  | nil : Fits [] 0 0
  | cons {value : JsValue} {stack : List JsValue} {values bytes : Nat}
      (clean : NodeClean toLowerCase value)
      (rest : Fits (childValues toLowerCase value ++ stack) values bytes) :
      Fits (value :: stack) (values + 1) (nodeBytes value + bytes)

variable {toLowerCase}

namespace Fits

variable {first second stack stack' : List JsValue} {values bytes : Nat}

theorem append {values' bytes' : Nat} (left : Fits toLowerCase first values bytes)
    (right : Fits toLowerCase second values' bytes') :
    Fits toLowerCase (first ++ second) (values + values') (bytes + bytes') := by
  induction left with
  | nil =>
    rw [Nat.zero_add, Nat.zero_add]
    exact right
  | cons clean _ ih =>
    rw [append_assoc] at ih
    rw [Nat.add_right_comm, Nat.add_assoc (nodeBytes _)]
    exact .cons clean ih

theorem split (fits : Fits toLowerCase stack values bytes) (parts : stack = first ++ second) :
    ∃ values₁ bytes₁ values₂ bytes₂, Fits toLowerCase first values₁ bytes₁ ∧
      Fits toLowerCase second values₂ bytes₂ ∧ values = values₁ + values₂ ∧
      bytes = bytes₁ + bytes₂ := by
  induction fits generalizing first with
  | nil =>
    obtain ⟨rfl, rfl⟩ := append_eq_nil_iff.mp parts.symm
    exact ⟨0, 0, 0, 0, .nil, .nil, rfl, rfl⟩
  | @cons value rest values bytes clean fits ih =>
    cases first with
    | nil =>
      cases parts
      exact ⟨0, 0, _, _, .nil, .cons clean fits, (Nat.zero_add _).symm, (Nat.zero_add _).symm⟩
    | cons value' first =>
      obtain ⟨rfl, rfl⟩ := cons.inj parts
      obtain ⟨values₁, bytes₁, values₂, bytes₂, left, right, rfl, rfl⟩ :=
        ih (append_assoc ..).symm
      exact ⟨_, _, _, _, .cons clean left, right, Nat.add_right_comm .., (Nat.add_assoc ..).symm⟩

/-- One part of a stack may be replaced by what counts the same. -/
theorem replace (fits : Fits toLowerCase (first ++ stack ++ second) values bytes)
    (same : ∀ values bytes, Fits toLowerCase stack values bytes →
      Fits toLowerCase stack' values bytes) :
    Fits toLowerCase (first ++ stack' ++ second) values bytes := by
  obtain ⟨_, _, _, _, left, right, rfl, rfl⟩ := fits.split rfl
  obtain ⟨_, _, _, _, front, middle, rfl, rfl⟩ := left.split rfl
  exact (front.append (same _ _ middle)).append right

theorem perm (reordered : stack.Perm stack') (fits : Fits toLowerCase stack values bytes) :
    Fits toLowerCase stack' values bytes := by
  induction reordered generalizing values bytes with
  | nil => exact fits
  | cons value _ ih =>
    obtain ⟨_, _, _, _, left, right, rfl, rfl⟩ := fits.split (singleton_append).symm
    exact left.append (ih right)
  | swap first second rest =>
    obtain ⟨values₁, bytes₁, _, _, left, right, rfl, rfl⟩ := fits.split (singleton_append).symm
    obtain ⟨_, _, _, _, middle, last, rfl, rfl⟩ := right.split (singleton_append).symm
    rw [Nat.add_left_comm values₁, Nat.add_left_comm bytes₁]
    exact middle.append (left.append last)
  | trans _ _ ih ih' => exact ih' (ih fits)

end Fits

section Loop

variable (path : Text) (options : OrganizationPolicyLocationProvider)

theorem fieldIssues_eq_nil_iff (key : Text) :
    fieldIssues toLowerCase options path key = [] ↔ fieldIssues toLowerCase noProvider [] key = [] := by
  unfold fieldIssues
  split_ifs <;> simp

variable (value : JsValue)

theorem nodeIssues_eq_nil_iff :
    (nodeIssues toLowerCase options path value).1 = [] ↔ NodeClean toLowerCase value := by
  unfold NodeClean
  cases value with
  | object fields =>
    unfold nodeIssues
    dsimp only
    split_ifs
    · simp
    · simp only [flatMap_eq_nil_iff, fieldIssues_eq_nil_iff path options]
  | array items =>
    unfold nodeIssues
    dsimp only
    split_ifs <;> simp
  | string text =>
    unfold nodeIssues
    dsimp only
    split_ifs <;> simp
  | number n => cases n <;> simp [nodeIssues]
  | _ => simp [nodeIssues]

theorem nodeIssues_snd : (nodeIssues toLowerCase options path value).2 =
      (nodeIssues toLowerCase noProvider [] value).2 := by
  unfold nodeIssues
  cases value with
  | number n => cases n <;> rfl
  | object fields =>
    dsimp only
    split_ifs <;> rfl
  | array items =>
    dsimp only
    split_ifs <;> rfl
  | string text =>
    dsimp only
    split_ifs <;> rfl
  | _ => rfl

theorem children_snd : (children path value).map (·.2) = (children [] value).map (·.2) := by
  unfold children
  cases value <;> simp only [map_map, Function.comp_def, map_nil]

/-- The children that the loop looks at do not depend on where the node is. -/
theorem map_children :
    (if (nodeIssues toLowerCase options path value).2 then children path value else []).map (·.2) =
      childValues toLowerCase value := by
  rw [childValues, nodeIssues_snd path options]
  split_ifs
  · exact children_snd path value
  · rfl

/-- What the loop has found, it keeps. -/
theorem boundaryLoop_prefix (remaining total : Nat) (stack : List (Text × JsValue))
    (issues : List OrganizationPolicyIssue) :
    issues <+: boundaryLoop toLowerCase options remaining total stack issues := by
  induction remaining generalizing total stack issues with
  | zero =>
    unfold boundaryLoop
    cases stack with
    | nil => exact prefix_rfl
    | cons node stack =>
      dsimp only
      split_ifs
      · exact prefix_rfl
      · exact prefix_append _ _
  | succ remaining ih =>
    unfold boundaryLoop
    cases stack with
    | nil => exact prefix_rfl
    | cons node stack =>
      dsimp only
      split_ifs
      · exact prefix_rfl
      · exact prefix_append _ _
      · exact (prefix_append _ _).trans (ih _ _ _)
      · exact (prefix_append _ _).trans (ih _ _ _)

/-- The loop finds nothing if the stack fits into what remains. -/
theorem boundaryLoop_eq_nil_iff {remaining total : Nat} {stack : List (Text × JsValue)}
    (within : total ≤ maximumTotalStringBytes) :
    boundaryLoop toLowerCase options remaining total stack [] = [] ↔
      ∃ values bytes, Fits toLowerCase (stack.map (·.2)) values bytes ∧ values ≤ remaining ∧
        total + bytes ≤ maximumTotalStringBytes := by
  induction remaining generalizing total stack with
  | zero =>
    cases stack with
    | nil => exact ⟨fun _ => ⟨0, 0, .nil, Nat.le_refl 0, within⟩, fun _ => by rfl⟩
    | cons node stack =>
      refine ⟨fun found => absurd found (by simp [boundaryLoop, maximumIssues]), ?_⟩
      rintro ⟨_, _, fits, none, _⟩
      cases fits
      cases none
  | succ remaining ih =>
    cases stack with
    | nil => exact ⟨fun _ => ⟨0, 0, .nil, Nat.zero_le _, within⟩, fun _ => by rfl⟩
    | cons node stack =>
      obtain ⟨path, value⟩ := node
      have deeper : (if (nodeIssues toLowerCase options path value).2 = true
          then children path value ++ stack else stack).map (·.2) =
          childValues toLowerCase value ++ stack.map (·.2) := by
        rw [← map_children path options value]
        split_ifs
        · exact map_append
        · rfl
      rw [boundaryLoop, if_neg (by simp [maximumIssues]), map_cons]
      by_cases exceeds : maximumTotalStringBytes < total + nodeBytes value
      · rw [if_pos exceeds]
        refine ⟨nofun, ?_⟩
        rintro ⟨_, _, fits, _, small⟩
        cases fits
        dsimp only at small
        omega
      · rw [if_neg exceeds]
        dsimp only
        constructor
        · intro nothing
          have clean : (nodeIssues toLowerCase options path value).1 = [] :=
            prefix_nil.mp (nothing ▸ boundaryLoop_prefix _ _ _ _ _)
          rw [clean, append_nil, ih (Nat.le_of_not_lt exceeds), deeper] at nothing
          obtain ⟨values, bytes, fits, few, small⟩ := nothing
          exact ⟨values + 1, _, .cons ((nodeIssues_eq_nil_iff path options value).mp clean) fits,
            Nat.succ_le_succ few, by omega⟩
        · rintro ⟨_, _, fits, few, small⟩
          cases fits with
          | @cons _ _ values bytes clean rest =>
            have none := (nodeIssues_eq_nil_iff path options value).mpr clean
            rw [none, append_nil, ih (Nat.le_of_not_lt exceeds), deeper]
            exact ⟨values, bytes, rest, Nat.le_of_succ_le_succ few, by omega⟩

end Loop

variable {issues : List OrganizationPolicyIssue}

theorem sortIssues_eq_nil_iff : sortIssues issues = [] ↔ issues = [] := by
  rw [← length_eq_zero_iff, sortIssues, length_sortBy, length_eq_zero_iff]

/-- Nothing is said at the end if nothing was found. -/
theorem sortIssues_bounded_eq_nil_iff : sortIssues (bounded issues) = [] ↔ issues = [] := by
  rw [sortIssues_eq_nil_iff, bounded, take_eq_nil_iff]
  exact ⟨fun cases => cases.resolve_left (by decide), .inr⟩

theorem validateJsonBoundary_eq_nil_iff {value : JsValue}
    {options : OrganizationPolicyLocationProvider} :
    validateJsonBoundary toLowerCase value options = [] ↔
      ∃ values bytes, Fits toLowerCase [value] values bytes ∧ values ≤ maximumValues ∧
        bytes ≤ maximumTotalStringBytes := by
  rw [validateJsonBoundary, sortIssues_bounded_eq_nil_iff,
    boundaryLoop_eq_nil_iff options (Nat.zero_le _)]
  simp

/-! ## Reordered arrays -/

section Reordering

variable {items items' : List JsValue}

theorem nodeClean_array : NodeClean toLowerCase (.array items) ↔
    items.length ≤ maximumContainerEntries := by
  unfold NodeClean nodeIssues
  dsimp only
  split_ifs with large
  · exact ⟨nofun, fun small => absurd large (Nat.not_lt.mpr small)⟩
  · exact ⟨fun _ => Nat.le_of_not_lt large, fun _ => rfl⟩

theorem childValues_array (small : items.length ≤ maximumContainerEntries) :
    childValues toLowerCase (.array items) = items := by
  have node : nodeIssues toLowerCase noProvider [] (.array items) = ([], true) :=
    if_neg (Nat.not_lt.mpr small)
  rw [childValues, node, if_pos rfl, children, map_map]
  exact zipIdx_map_fst 0 items

theorem fits_array_perm (reordered : items.Perm items') {values bytes : Nat}
    (fits : Fits toLowerCase [.array items] values bytes) :
    Fits toLowerCase [.array items'] values bytes := by
  cases fits with
  | cons clean rest =>
    have small := nodeClean_array.mp clean
    have small' : items'.length ≤ maximumContainerEntries := reordered.length_eq ▸ small
    rw [childValues_array small, append_nil] at rest
    refine .cons (nodeClean_array.mpr small') ?_
    rw [childValues_array small', append_nil]
    exact rest.perm reordered

variable {front back : Fields} {key : Text}

theorem nodeIssues_object {fields fields' : Fields} (keys : JsValue.keys fields = JsValue.keys fields') :
    nodeIssues toLowerCase noProvider [] (.object fields) =
      nodeIssues toLowerCase noProvider [] (.object fields') := by
  have lengths : fields.length = fields'.length := by
    simpa [JsValue.keys] using congrArg length keys
  have issues : ∀ fields : Fields, (fields.flatMap fun field =>
      fieldIssues toLowerCase noProvider [] field.1) =
      (JsValue.keys fields).flatMap (fieldIssues toLowerCase noProvider []) :=
    fun fields => (flatMap_map Prod.fst _ fields).symm
  unfold nodeIssues
  dsimp only
  rw [lengths, issues, issues, keys]

/-- A field of an object may be reordered. -/
theorem fits_object_perm (reordered : items.Perm items') {values bytes : Nat}
    (fits : Fits toLowerCase [.object (front ++ (key, .array items) :: back)] values bytes) :
    Fits toLowerCase [.object (front ++ (key, .array items') :: back)] values bytes := by
  have same : nodeIssues toLowerCase noProvider []
      (.object (front ++ (key, .array items) :: back)) =
      nodeIssues toLowerCase noProvider [] (.object (front ++ (key, .array items') :: back)) :=
    nodeIssues_object (by simp [JsValue.keys])
  cases fits with
  | cons clean rest =>
    unfold NodeClean at clean
    rw [same] at clean
    refine .cons clean ?_
    rw [childValues, same] at rest
    rw [childValues]
    split_ifs at rest ⊢
    · unfold children at rest ⊢
      simp only [filter_append, filter_cons] at rest ⊢
      split_ifs at rest ⊢
      · simp only [reverse_append, reverse_cons, map_append, map_cons, map_nil,
          append_assoc, append_nil] at rest ⊢
        rw [← append_assoc] at rest ⊢
        exact rest.replace fun _ _ => fits_array_perm reordered
      · exact rest
    · exact rest

end Reordering

theorem validateJsonBoundary_array_perm {items items' : List JsValue}
    {options : OrganizationPolicyLocationProvider} (reordered : items.Perm items')
    (clean : validateJsonBoundary toLowerCase (.array items) options = []) :
    validateJsonBoundary toLowerCase (.array items') options = [] := by
  rw [validateJsonBoundary_eq_nil_iff] at clean ⊢
  obtain ⟨values, bytes, fits, few, small⟩ := clean
  exact ⟨values, bytes, fits_array_perm reordered fits, few, small⟩

/-! ## Reordered layers -/

section Layers

variable {items items' : List JsValue} {name : OverrideLayer} {ruleIds : List Text}
  {entries : List OrganizationPolicyOverride}

/-- The entries of a layer, in the order of their keys. -/
def layerEntries (name : OverrideLayer) (ruleIds : List Text) (items : List JsValue) :
    List OrganizationPolicyOverride :=
  sortBy compareOverrides (items.filterMap (readOverride name ruleIds))

/-- Sorting and cutting issues keeps what settles. -/
theorem settled_sorted {α β : Type} (x : Validated α) (f : α → β) :
    (⟨f x.value, sortIssues (bounded x.issues)⟩ : Validated β).settled = x.settled.map f := by
  rcases x with ⟨value, _ | ⟨issue, issues⟩⟩
  · rfl
  · exact settled_eq_none.mpr fun clean =>
      cons_ne_nil _ _ (sortIssues_bounded_eq_nil_iff.mp clean)

theorem settled_validateOverrideLayer {layer : JsValue} :
    (validateOverrideLayer toLowerCase layer name ruleIds).settled = some entries ↔
      ∃ items, layer = .array items ∧ validateJsonBoundary toLowerCase layer noProvider = [] ∧
        items.length ≤ maximumPolicies ∧
        Admissible (readOverride name ruleIds) (·.id) overrideKey items ∧
        entries = layerEntries name ruleIds items := by
  unfold validateOverrideLayer
  dsimp only
  by_cases dirty : validateJsonBoundary toLowerCase layer noProvider ≠ []
  · rw [if_pos dirty, settled_eq_some]
    refine ⟨fun settles => absurd (sortIssues_eq_nil_iff.mp settles.1) dirty, ?_⟩
    rintro ⟨_, _, clean, _⟩
    exact absurd clean dirty
  · rw [if_neg dirty]
    cases layer with
    | array items =>
      dsimp only
      by_cases large : maximumPolicies < items.length
      · rw [if_pos large]
        refine ⟨nofun, ?_⟩
        rintro ⟨_, ⟨⟩, _, small, _⟩
        exact absurd large (Nat.not_lt.mpr small)
      · rw [if_neg large]
        have sorted := settled_sorted (validateOverrides name ruleIds 0 items ⟨[], [], []⟩)
          fun state => sortBy compareOverrides state.classified
        have loop : (validateOverrides name ruleIds 0 items ⟨[], [], []⟩).settled.map
            LayerState.admitted = empty.admitAll (readOverride name ruleIds) (·.id) overrideKey
              items := settled_validateOverrides
        have register : (validateOverrides name ruleIds 0 items ⟨[], [], []⟩).settled.map
            (fun state => sortBy compareOverrides state.classified) =
            (empty.admitAll (readOverride name ruleIds) (·.id) overrideKey items).map fun register =>
              sortBy compareOverrides register.entries := by
          rw [← loop, Option.map_map]
          rfl
        rw [(Eq.congr_left sorted), register, Option.map_eq_some_iff]
        simp only [Admitted.admitAll_empty_eq_some]
        constructor
        · rintro ⟨_, ⟨admissible, rfl⟩, rfl⟩
          exact ⟨items, rfl, not_not.mp dirty, Nat.le_of_not_lt large, admissible, rfl⟩
        · rintro ⟨_, ⟨⟩, _, _, admissible, rfl⟩
          exact ⟨_, ⟨admissible, rfl⟩, rfl⟩
    | _ =>
      refine ⟨nofun, ?_⟩
      rintro ⟨_, ⟨⟩, _⟩

/-- The keys of a layer tell its entries apart. -/
theorem eq_of_compareOverrides (keys : (entries.map overrideKey).Nodup) :
    ∀ first ∈ entries, ∀ second ∈ entries, compareOverrides first second = .eq → first = second := by
  intro first inFirst second inSecond same
  exact inj_on_of_nodup_map keys inFirst inSecond
    (compareUnits_eq_iff.mp (Ordering.then_eq_eq.mp same).1)

instance : Std.TransCmp compareOverrides :=
  inferInstanceAs (Std.TransCmp (compareLex (comparingWith compareUnits overrideKey)
    (comparingWith compareUnits fun entry : OrganizationPolicyOverride => entry.id)))

/-- A reordered layer of overrides has the entries of the layer. -/
theorem validateOverrideLayer_perm (reordered : items.Perm items')
    (accepted : (validateOverrideLayer toLowerCase (.array items) name ruleIds).settled =
      some entries) :
    (validateOverrideLayer toLowerCase (.array items') name ruleIds).settled = some entries := by
  obtain ⟨_, ⟨⟩, clean, small, admissible, rfl⟩ := settled_validateOverrideLayer.mp accepted
  refine settled_validateOverrideLayer.mpr ⟨items', rfl,
    validateJsonBoundary_array_perm reordered clean, reordered.length_eq ▸ small,
    admissible.perm reordered.symm, ?_⟩
  exact sortBy_eq_of_perm compareOverrides (eq_of_compareOverrides admissible.keys)
    (reordered.filterMap _)

theorem isLayerOf_of_readOverride {value : JsValue} {override : OrganizationPolicyOverride}
    (read : readOverride name ruleIds value = some override) :
    name.isLayerOf override.source = true := by
  unfold readOverride at read
  split at read
  · split at read
    · simp only [Option.bind_eq_bind, Option.bind_eq_some_iff, Option.guard_eq_some'] at read
      obtain ⟨_, _, _, _, _, _, _, isLayer, _, _, _, _, made⟩ := read
      cases made
      exact isLayer
    · cases read
  · cases read

/-- What holds of the entries of an accepted layer. -/
theorem layerEntries_facts
    (admissible : Admissible (readOverride name ruleIds) (·.id) overrideKey items) :
    ((layerEntries name ruleIds items).map overrideKey).Nodup ∧
      ∀ entry ∈ layerEntries name ruleIds items, name.isLayerOf entry.source = true := by
  constructor
  · exact ((sortBy_perm compareOverrides _).map overrideKey).nodup_iff.mpr admissible.keys
  · intro entry member
    obtain ⟨_, _, read⟩ := mem_filterMap.mp ((mem_sortBy compareOverrides).mp member)
    exact isLayerOf_of_readOverride read

end Layers

/-! ## Reordered packs -/

section Packs

variable {items items' : List JsValue} {ruleIds : List Text}
  {options : OrganizationPolicyLocationProvider} {pack : ValidatedOrganizationPolicyPack}
  {untrusted : ValidateOrganizationPolicyPackOptions}
  {capability : Option OrganizationPolicyCapabilities}

theorem settled_validatePolicyArray {value : JsValue} {policies : List OrganizationPolicyEntry} :
    (validatePolicyArray value ruleIds options).settled.map (·.policies) = some policies ↔
      ∃ items, value = .array items ∧ items.length ≤ maximumPolicies ∧
        Admissible (readPolicy ruleIds) (·.id) policyKey items ∧
        policies = items.filterMap (readPolicy ruleIds) := by
  unfold validatePolicyArray
  cases value with
  | array items =>
    dsimp only
    by_cases large : maximumPolicies < items.length
    · rw [if_pos large]
      refine ⟨nofun, ?_⟩
      rintro ⟨_, ⟨⟩, small, _⟩
      exact absurd large (Nat.not_lt.mpr small)
    · have loop : (validatePolicies ruleIds options 0 items ⟨[], [], [], .empty⟩).settled.map
          PolicyState.admitted = empty.admitAll (readPolicy ruleIds) (·.id) policyKey items :=
        settled_validatePolicies
      have register : (validatePolicies ruleIds options 0 items ⟨[], [], [], .empty⟩).settled.map
          (·.policies) = (empty.admitAll (readPolicy ruleIds) (·.id) policyKey items).map
            (·.entries) := by
        rw [← loop, Option.map_map]
        rfl
      rw [if_neg large, register, Option.map_eq_some_iff]
      simp only [Admitted.admitAll_empty_eq_some]
      constructor
      · rintro ⟨_, ⟨admissible, rfl⟩, rfl⟩
        exact ⟨items, rfl, Nat.le_of_not_lt large, admissible, rfl⟩
      · rintro ⟨_, ⟨⟩, _, admissible, rfl⟩
        exact ⟨_, ⟨admissible, rfl⟩, rfl⟩
  | _ =>
    refine ⟨nofun, ?_⟩
    rintro ⟨_, ⟨⟩, _⟩

/-- Policies in the order of their identifiers. -/
def sortPolicies (policies : List OrganizationPolicyEntry) : List OrganizationPolicyEntry :=
  sortBy (fun left right => compareUnits left.id right.id) policies

theorem sortPolicies_perm {policies policies' : List OrganizationPolicyEntry}
    (ids : (policies.map (·.id)).Nodup) (reordered : policies.Perm policies') :
    sortPolicies policies = sortPolicies policies' :=
  sortBy_eq_of_perm (comparingWith compareUnits fun policy : OrganizationPolicyEntry => policy.id)
    (fun _ inFirst _ inSecond same =>
      inj_on_of_nodup_map ids inFirst inSecond (compareUnits_eq_iff.mp same)) reordered

/-- The header of a document does not depend on its policies. -/
theorem validateHeader_congr {root root' : Fields} {originPath : Text}
    (same : ∀ key, key ≠ js "policies" → JsValue.get root key = JsValue.get root' key) :
    validateHeader root capability originPath options =
      validateHeader root' capability originPath options := by
  have strings : ∀ key path maximumBytes, js key ≠ js "policies" →
      requiredString root key path options maximumBytes =
        requiredString root' key path options maximumBytes := by
    intro key path maximumBytes other
    unfold requiredString
    rw [same _ other]
  unfold validateHeader
  rw [strings _ _ _ (by decide), strings _ _ _ (by decide), strings _ _ _ (by decide),
    strings _ _ _ (by decide), same _ (by decide), same _ (by decide)]

def packOf (header : DocumentHeader) (origin : OrganizationPolicyPackOrigin) (state : PolicyState) :
    ValidatedOrganizationPolicyPack where
  document := {
    compatibility := header.compatibility
    packId := header.packId
    packVersion := header.packVersion
    policies := sortPolicies state.policies
    provenance := header.provenance }
  origin := origin
  policyLocations := state.policyLocations

theorem settled_exactObject (fields : Fields) (path : Text) (allowed : List Text) :
    (exactObject (.object fields) path allowed options).settled =
      if (JsValue.keys fields).all allowed.contains = true then some (some fields) else none := by
  rw [exactObject, settled_map]
  simp only [filter_not_eq_nil_iff]

theorem settled_validateDocument {input : JsValue} {origin : OrganizationPolicyPackOrigin} :
    (validateDocument input capability ruleIds origin options).settled = some (some pack) ↔
      ∃ fields header state, input = .object fields ∧
        (JsValue.keys fields).all documentFields.contains = true ∧
        (validateHeader fields capability origin.path options).settled = some (some header) ∧
        (validatePolicyArray (JsValue.get fields (js "policies")) ruleIds options).settled =
          some state ∧
        pack = packOf header origin state := by
  unfold validateDocument
  cases input with
  | object fields =>
    rw [settled_bind, settled_exactObject]
    by_cases known : (JsValue.keys fields).all documentFields.contains = true
    · rw [if_pos known]
      simp only [Option.bind_some, settled_bind, settled_pure, Option.bind_eq_some_iff,
        Option.some.injEq, Option.map_eq_some_iff]
      constructor
      · rintro ⟨_, header, state, policies, header', rfl, rfl⟩
        exact ⟨fields, header', state, rfl, known, header, policies, rfl⟩
      · rintro ⟨_, header', state, ⟨⟩, _, header, policies, rfl⟩
        exact ⟨_, header, state, policies, header', rfl, rfl⟩
    · rw [if_neg known]
      refine ⟨nofun, ?_⟩
      rintro ⟨_, _, _, ⟨⟩, all, _⟩
      exact absurd all known
  | _ =>
    refine ⟨nofun, ?_⟩
    rintro ⟨_, _, _, ⟨⟩, _⟩

/-- What an accepted pack went through. -/
structure PackAccepted (toLowerCase : Text → Text) (input : JsValue)
    (untrusted : ValidateOrganizationPolicyPackOptions) (pack : ValidatedOrganizationPolicyPack) :
    Prop where
  snapshot : (closedObject untrusted.origin [js "path", js "sha256"]).isSome = true
  boundary : validateJsonBoundary toLowerCase input untrusted.provider = []
  capability : (validateCapabilities toLowerCase untrusted.capabilities untrusted.provider).Clean
  origin : (validateOrigin (closedObject untrusted.origin [js "path", js "sha256"])
    untrusted.provider).Clean
  document : (validateDocument input
    (some (validateCapabilities toLowerCase untrusted.capabilities untrusted.provider).value)
    (validateCapabilities toLowerCase untrusted.capabilities untrusted.provider).value.ruleIds
    (validateOrigin (closedObject untrusted.origin [js "path", js "sha256"])
      untrusted.provider).value untrusted.provider).settled = some (some pack)

theorem bounded_eq_nil_iff {issues : List OrganizationPolicyIssue} :
    bounded issues = [] ↔ issues = [] := by
  rw [bounded, take_eq_nil_iff]
  exact ⟨fun cases => cases.resolve_left (by decide), .inr⟩

/-- The document is what a clean validation leaves. -/
theorem document_eq_ok {document : Validated (Option ValidatedOrganizationPolicyPack)} :
    (match document.issues, document.value with
      | [], some pack => .ok pack
      | issues, _ => .error (sortIssues (bounded issues)) :
        Except (List OrganizationPolicyIssue) ValidatedOrganizationPolicyPack) = .ok pack ↔
      document.settled = some (some pack) := by
  rcases document with ⟨_ | pack, _ | ⟨issue, issues⟩⟩ <;> simp [settled]

theorem validateOrganizationPolicyPack_eq_ok {input : JsValue} :
    validateOrganizationPolicyPack toLowerCase input untrusted = .ok pack ↔
      PackAccepted toLowerCase input untrusted pack := by
  have snapshots : ∀ issue : OrganizationPolicyIssue, (pushIf
      ((closedObject untrusted.origin [js "path", js "sha256"]).isNone = true) issue).issues = [] ↔
      (closedObject untrusted.origin [js "path", js "sha256"]).isSome = true := by
    intro issue
    cases closedObject untrusted.origin [js "path", js "sha256"] <;> simp [pushIf]
  unfold validateOrganizationPolicyPack
  dsimp only
  split_ifs with dirty capability
  · refine ⟨fun refused => ?_, fun accepted => absurd (bounded_eq_nil_iff.mpr ?_) dirty⟩
    · cases refused
    rw [accepted.boundary, accepted.capability, accepted.origin, (snapshots _).mpr accepted.snapshot]
    rfl
  · rw [not_not, bounded_eq_nil_iff, append_eq_nil_iff, append_eq_nil_iff,
      append_eq_nil_iff, snapshots] at dirty
    obtain ⟨⟨⟨snapshot, boundary⟩, _⟩, origin⟩ := dirty
    exact document_eq_ok.trans ⟨fun document => ⟨snapshot, boundary, capability, origin, document⟩,
      fun accepted => accepted.document⟩
  · rw [not_not, bounded_eq_nil_iff, append_eq_nil_iff, append_eq_nil_iff] at dirty
    exact absurd dirty.1.2 capability

def documentWith (front back : Fields) (policies : List JsValue) : JsValue :=
  .object (front ++ (js "policies", .array policies) :: back)

/-- A pack with its policies reordered is accepted with the same document and origin. -/
theorem validateOrganizationPolicyPack_perm {front back : Fields}
    (reordered : items.Perm items') (once : js "policies" ∉ JsValue.keys front)
    (accepted : validateOrganizationPolicyPack toLowerCase (documentWith front back items) untrusted =
      .ok pack) :
    ∃ pack', validateOrganizationPolicyPack toLowerCase (documentWith front back items') untrusted =
      .ok pack' ∧ pack'.document = pack.document ∧ pack'.origin = pack.origin := by
  have all := validateOrganizationPolicyPack_eq_ok.mp accepted
  obtain ⟨_, header, state, ⟨⟩, known, headers, policies, made⟩ :=
    settled_validateDocument.mp all.document
  rw [JsValue.get_append_cons once] at policies
  obtain ⟨_, ⟨⟩, few, admissible, read⟩ := settled_validatePolicyArray.mp
    (show _ = some state.policies by rw [policies]; rfl)
  obtain ⟨state', policies', read'⟩ := Option.map_eq_some_iff.mp
    (settled_validatePolicyArray.mpr ⟨items', rfl, reordered.length_eq ▸ few,
      admissible.perm reordered.symm, rfl⟩)
  have keys : JsValue.keys (front ++ (js "policies", .array items') :: back) =
      JsValue.keys (front ++ (js "policies", .array items) :: back) := by simp [JsValue.keys]
  have sorted := sortPolicies_perm admissible.ids (reordered.filterMap _)
  refine ⟨packOf header _ state', validateOrganizationPolicyPack_eq_ok.mpr ⟨all.snapshot, ?_,
    all.capability, all.origin, settled_validateDocument.mpr ⟨_, header, state', rfl, ?_, ?_, ?_,
      rfl⟩⟩, ?_, ?_⟩
  · obtain ⟨values, bytes, fits, within⟩ := validateJsonBoundary_eq_nil_iff.mp all.boundary
    exact validateJsonBoundary_eq_nil_iff.mpr ⟨values, bytes, fits_object_perm reordered fits, within⟩
  · rw [keys]
    exact known
  · rw [← headers]
    refine congrArg settled (validateHeader_congr fun key other => ?_)
    rw [JsValue.get_append_cons_of_ne other, JsValue.get_append_cons_of_ne other]
  · rw [JsValue.get_append_cons once]
    exact policies'
  · rw [made]
    unfold packOf
    dsimp only
    rw [read, read', sorted]
  · rw [made]
    rfl

end Packs

end AgentContextLint.OrganizationPolicy
