import AgentContextLint.Core.OrganizationPolicy
import AgentContextLint.Lib.Admission

/-!
# What organization policy validation accepts

The locations that a validator writes into its issues do not change what it accepts. So the
overrides of a layer and the policies of a pack can be read one by one (`readOverride`,
`readPolicy`), and a loop over them accepts a list if each entry can be read and no identifier and
no target comes twice.
-/

namespace AgentContextLint

open Utf16 Sorting Checked
open JsValue (get keys)
open Delivers (bind)
open List (append_cancel_left cons)
open Option (bind_assoc bind_eq_bind bind_map bind_some join_some map_bind)

/-! ## Keys of targets -/

theorem ConfigurationProfileId.text_injective : Function.Injective ConfigurationProfileId.text := by
  intro first second same
  revert same
  cases first <;> cases second <;> decide

theorem OrganizationPolicySettingId.text_injective :
    Function.Injective OrganizationPolicySettingId.text := by
  have read : ∀ id : OrganizationPolicySettingId, ofText id.text = some id := fun id => by
    cases id <;> decide
  exact fun first second same =>
    Option.some.inj ((read first).symm.trans ((congrArg ofText same).trans (read second)))

theorem ConfigurationSurfaceId.text_injective : Function.Injective ConfigurationSurfaceId.text := by
  intro first second same
  revert same
  cases first <;> cases second <;> decide

theorem ConfigurationProfileId.colon_notMem_text (id : ConfigurationProfileId) :
    0x3a ∉ id.text := by
  cases id <;> decide

namespace OrganizationPolicy

/-- The text in front of a key tells the kinds of targets apart. -/
theorem targetKey_injective {first second : OrganizationPolicyTarget}
    (same : targetKey first = targetKey second) : first = second := by
  cases first with
  | profile profileId =>
    cases second with
    | profile profileId' =>
      rw [ConfigurationProfileId.text_injective (append_cancel_left same)]
    | rule _ => exact absurd (cons.inj same).1 (by decide)
    | setting _ => exact absurd (cons.inj same).1 (by decide)
    | surface _ _ => exact absurd (cons.inj same).1 (by decide)
  | rule ruleId =>
    cases second with
    | rule ruleId' => rw [append_cancel_left same]
    | profile _ => exact absurd (cons.inj same).1 (by decide)
    | setting _ => exact absurd (cons.inj same).1 (by decide)
    | surface _ _ => exact absurd (cons.inj same).1 (by decide)
  | setting settingId =>
    cases second with
    | setting settingId' =>
      rw [OrganizationPolicySettingId.text_injective (append_cancel_left same)]
    | profile _ => exact absurd (cons.inj same).1 (by decide)
    | rule _ => exact absurd (cons.inj same).1 (by decide)
    | surface _ _ =>
      exact absurd (cons.inj (cons.inj (cons.inj same).2).2).1 (by decide)
  | surface profileId surfaceId =>
    cases second with
    | surface profileId' surfaceId' =>
      unfold targetKey at same
      simp only [List.append_assoc] at same
      obtain ⟨profiles, surfaces⟩ := Netstring.append_cons_inj profileId.colon_notMem_text
        profileId'.colon_notMem_text (append_cancel_left same)
      rw [ConfigurationProfileId.text_injective profiles,
        ConfigurationSurfaceId.text_injective surfaces]
    | profile _ => exact absurd (cons.inj same).1 (by decide)
    | rule _ => exact absurd (cons.inj same).1 (by decide)
    | setting _ =>
      exact absurd (cons.inj (cons.inj (cons.inj same).2).2).1 (by decide)

/-! ## Locations do not matter -/

section Locations

variable (path path' : Text) (options options' : OrganizationPolicyLocationProvider)

theorem exactObject_alike (value : JsValue) (allowed : List Text) :
    (exactObject value path allowed options).Alike (exactObject value path' allowed options') := by
  cases value with
  | object fields => exact .map _ _ _ _
  | _ => exact .complaints _ _ _ _

theorem requiredString_alike (record : Fields) (key : String) (maximumBytes : Nat) :
    (requiredString record key path options maximumBytes).Alike
      (requiredString record key path' options' maximumBytes) := by
  unfold requiredString
  cases get record (js key) with
  | string value =>
    dsimp only
    split_ifs
    · exact .complaints _ _ _ _
    · exact .refl _
  | _ => exact .complaints _ _ _ _

theorem refuseFields_alike (record : Fields) (names : List String) (kind : String) :
    (refuseFields record names path kind options).Alike
      (refuseFields record names path' kind options') := .map _ _ _ _

theorem unsupported_alike (field : String) (message : Text) :
    (unsupported path field message options).Alike (unsupported path' field message options') :=
  .complaints _ _ _ _

theorem validateProfileTarget_alike (record : Fields) :
    (validateProfileTarget record path options).Alike
      (validateProfileTarget record path' options') := by
  refine (refuseFields_alike ..).bind fun _ => (requiredString_alike ..).bind fun profileId => ?_
  cases profileId with
  | none => exact .refl _
  | some profileId =>
    dsimp only
    cases ConfigurationProfileId.ofText profileId with
    | none => exact unsupported_alike ..
    | some profile => exact .refl _

theorem validateSurfaceTarget_alike (record : Fields) :
    (validateSurfaceTarget record path options).Alike
      (validateSurfaceTarget record path' options') := by
  refine (refuseFields_alike ..).bind fun _ => (requiredString_alike ..).bind fun profileId =>
    (requiredString_alike ..).bind fun surfaceId => ?_
  cases profileId with
  | none => exact .refl _
  | some profileId =>
    dsimp only
    cases ConfigurationProfileId.ofText profileId with
    | none => exact unsupported_alike ..
    | some profile =>
      cases surfaceId with
      | none => exact .refl _
      | some surfaceId =>
        dsimp only
        cases (configurationSurfacesByProfile profile).find? fun id => id.text = surfaceId with
        | none => exact unsupported_alike ..
        | some surface => exact .refl _

theorem validateRuleTarget_alike (record : Fields) (ruleIds : List Text) :
    (validateRuleTarget record path ruleIds options).Alike
      (validateRuleTarget record path' ruleIds options') := by
  refine (refuseFields_alike ..).bind fun _ => (requiredString_alike ..).bind fun ruleId => ?_
  cases ruleId with
  | none => exact .refl _
  | some ruleId =>
    dsimp only
    split_ifs
    · exact .refl _
    · exact unsupported_alike ..

theorem validateSettingTarget_alike (record : Fields) :
    (validateSettingTarget record path options).Alike
      (validateSettingTarget record path' options') := by
  refine (refuseFields_alike ..).bind fun _ => (requiredString_alike ..).bind fun settingId => ?_
  cases settingId with
  | none => exact .refl _
  | some settingId =>
    dsimp only
    cases OrganizationPolicySettingId.ofText settingId with
    | none => exact unsupported_alike ..
    | some setting => exact .refl _

theorem validateTarget_alike (value : JsValue) (ruleIds : List Text) :
    (validateTarget value path ruleIds options).Alike
      (validateTarget value path' ruleIds options') := by
  refine (exactObject_alike ..).bind fun record => ?_
  cases record with
  | none => exact .refl _
  | some record =>
    refine (requiredString_alike ..).bind fun kind => ?_
    cases kind with
    | none => exact .refl _
    | some kind =>
      dsimp only
      split_ifs
      · exact validateProfileTarget_alike ..
      · exact validateSurfaceTarget_alike ..
      · exact validateRuleTarget_alike ..
      · exact validateSettingTarget_alike ..
      · exact .complaints _ _ _ _

theorem validateRuleValue_alike (value : JsValue) :
    (validateRuleValue value path options).Alike (validateRuleValue value path' options') := by
  refine (exactObject_alike ..).bind fun record => ?_
  cases record with
  | none => exact .refl _
  | some record =>
    exact (requiredString_alike ..).bind fun severity => (Alike.pushIf ..).bind fun _ =>
      (Alike.pushIf ..).bind fun _ => (Alike.pushIf ..).bind fun _ => .refl _

theorem validateValue_alike (value : JsValue) (target : OrganizationPolicyTarget) :
    (validateValue value target path options).Alike (validateValue value target path' options') := by
  cases target with
  | rule ruleId => exact validateRuleValue_alike ..
  | setting settingId =>
    unfold validateValue
    dsimp only
    cases settingValue settingId value with
    | none => exact .complaints _ _ _ _
    | some value => exact .refl _
  | _ =>
    unfold validateValue
    dsimp only
    cases boolean? value with
    | none => exact .complaints _ _ _ _
    | some value => exact .refl _

end Locations

/-! ## What comes without an issue is there -/

section Delivery

variable (path : Text) (options : OrganizationPolicyLocationProvider)

theorem exactObject_delivers (value : JsValue) (allowed : List Text) :
    (exactObject value path allowed options).Delivers := by
  cases value with
  | object fields =>
    unfold exactObject Delivers
    dsimp only
    rw [settled_map]
    split_ifs
    · exact fun none => by cases Option.some.inj none
    · exact nofun
  | _ => exact .complaint _ _

theorem requiredString_delivers (record : Fields) (key : String) (maximumBytes : Nat) :
    (requiredString record key path options maximumBytes).Delivers := by
  unfold requiredString
  cases get record (js key) with
  | string value =>
    dsimp only
    split_ifs
    · exact .complaint _ _
    · exact .some _
  | _ => exact .complaint _ _

theorem unsupported_delivers (field : String) (message : Text) :
    (unsupported path field message options).Delivers := .complaint _ _

theorem validateProfileTarget_delivers (record : Fields) :
    (validateProfileTarget record path options).Delivers := by
  refine .after fun _ _ => bind (requiredString_delivers _ _ _ _ _) fun profileId => ?_
  dsimp only
  cases ConfigurationProfileId.ofText profileId with
  | none => exact unsupported_delivers _ _ _ _
  | some profile => exact .some _

theorem validateSurfaceTarget_delivers (record : Fields) :
    (validateSurfaceTarget record path options).Delivers := by
  refine .after fun _ _ => bind (requiredString_delivers _ _ _ _ _) fun profileId =>
    bind (requiredString_delivers _ _ _ _ _) fun surfaceId => ?_
  dsimp only
  cases ConfigurationProfileId.ofText profileId with
  | none => exact unsupported_delivers _ _ _ _
  | some profile =>
    dsimp only
    cases (configurationSurfacesByProfile profile).find? fun id => id.text = surfaceId with
    | none => exact unsupported_delivers _ _ _ _
    | some surface => exact .some _

theorem validateRuleTarget_delivers (record : Fields) (ruleIds : List Text) :
    (validateRuleTarget record path ruleIds options).Delivers := by
  refine .after fun _ _ => bind (requiredString_delivers _ _ _ _ _) fun ruleId => ?_
  dsimp only
  split_ifs
  · exact .some _
  · exact unsupported_delivers _ _ _ _

theorem validateSettingTarget_delivers (record : Fields) :
    (validateSettingTarget record path options).Delivers := by
  refine .after fun _ _ => bind (requiredString_delivers _ _ _ _ _) fun settingId => ?_
  dsimp only
  cases OrganizationPolicySettingId.ofText settingId with
  | none => exact unsupported_delivers _ _ _ _
  | some setting => exact .some _

theorem validateTarget_delivers (value : JsValue) (ruleIds : List Text) :
    (validateTarget value path ruleIds options).Delivers := by
  refine bind (exactObject_delivers _ _ _ _) fun record => bind (requiredString_delivers _ _ _ _ _) fun kind => ?_
  dsimp only
  split_ifs
  · exact validateProfileTarget_delivers _ _ record
  · exact validateSurfaceTarget_delivers _ _ record
  · exact validateRuleTarget_delivers _ _ record ruleIds
  · exact validateSettingTarget_delivers _ _ record
  · exact .complaint _ _

theorem validateRuleValue_delivers (value : JsValue) :
    (validateRuleValue value path options).Delivers := by
  refine bind (exactObject_delivers _ _ _ _) fun record =>
    bind (requiredString_delivers _ _ _ _ _) fun severity => ?_
  refine .after fun _ present => .after fun _ limit => .after fun _ registered => ?_
  rw [settled_pushIf, Option.ite_none_left_eq_some] at limit registered
  cases limited : maxTokens? (get record (js "maxTokens")) with
  | none => exact absurd (by rw [limited]; rfl) limit.1
  | some maxTokens =>
    cases known : ConfigurationRuleSeverity.ofText severity with
    | none => exact absurd ⟨rfl, by rw [bind_some, known]; rfl⟩ registered.1
    | some severity =>
      rw [bind_some, bind_some, known]
      exact .some _

theorem validateValue_delivers (value : JsValue) (target : OrganizationPolicyTarget) :
    (validateValue value target path options).Delivers := by
  cases target with
  | rule ruleId => exact validateRuleValue_delivers _ _ value
  | setting settingId =>
    unfold validateValue
    dsimp only
    cases settingValue settingId value with
    | none => exact .complaint _ _
    | some value => exact .some _
  | _ =>
    unfold validateValue
    dsimp only
    cases boolean? value with
    | none => exact .complaint _ _
    | some value => exact .some _

end Delivery

/-! ## Override layers -/

section Layers

/-- An override by itself, if nothing is wrong with it. -/
def readOverride (name : OverrideLayer) (ruleIds : List Text) (value : JsValue) :
    Option OrganizationPolicyOverride :=
  match value with
  | .object fields =>
    match (get fields (js "id")).text?, get fields (js "source") with
    | some id, .object sourceFields => do
      guard (fitsSafeUtf8 id 256 && isStableId id)
      let source ← (overrideSource sourceFields []).settled.join
      guard ((keys fields).all [js "id", js "source", js "target", js "value"].contains)
      guard (name.isLayerOf source)
      let target ← (validateTarget (get fields (js "target")) [] ruleIds
        noProvider).settled.join
      let value ← (validateValue (get fields (js "value")) target []
        noProvider).settled.join
      return { id, source, target, value }
    | _, _ => none
  | _ => none

/-- The variables of the loop, as a register of overrides. -/
def LayerState.admitted (state : LayerState) : Admitted Text OrganizationPolicyOverride :=
  ⟨state.seenIds, state.seenTargets, state.classified⟩

/-- The key of an entry's target. -/
def overrideKey (override : OrganizationPolicyOverride) : Text := targetKey override.target

variable {path : Text}

theorem overrideSource_alike (fields : Fields) (path path' : Text) :
    (overrideSource fields path).Alike (overrideSource fields path') := by
  unfold overrideSource foreignFields
  dsimp only
  split_ifs
  · exact .map _ _ _ _
  · exact .map _ _ _ _
  · exact .refl _

/-- What the loop makes of an override whose source is known. -/
theorem settled_classifyOverride (ruleIds : List Text) (fields : Fields) {id : Text}
    (source : OrganizationPolicyOverrideSource) (state : LayerState)
    (options : OrganizationPolicyLocationProvider)
    (stable : (fitsSafeUtf8 id 256 && isStableId id) = true) :
    (classifyOverride ruleIds path fields id (some source) state options).settled =
      (validateTarget (get fields (js "target")) [] ruleIds noProvider).settled.join.bind
        fun target => (validateValue (get fields (js "value")) target []
          noProvider).settled.join.bind fun value =>
            if targetKey target ∈ state.seenTargets then none
            else some { state with
              seenTargets := state.seenTargets ++ [targetKey target]
              classified := state.classified ++ [{ id, source, target, value }] } := by
  have targets : (validateTarget (get fields (js "target")) (path ++ js ".target") ruleIds
      options).settled = _ := validateTarget_alike _ [] _ noProvider _ ruleIds
  have delivers := validateTarget_delivers (path ++ js ".target") options
    (get fields (js "target")) ruleIds
  unfold classifyOverride
  rw [← targets]
  generalize validateTarget (get fields (js "target")) (path ++ js ".target") ruleIds
    options = target at delivers ⊢
  rcases target with ⟨_ | target, _ | ⟨issue, issues⟩⟩
  · exact absurd rfl delivers
  · rfl
  · have values : (validateValue (get fields (js "value")) target (path ++ js ".value")
        options).settled = _ := validateValue_alike _ [] _ noProvider _ target
    rw [Bool.and_comm] at stable
    rw [settled_clean, join_some, bind_some]
    refine ((validateValue_delivers _ _ _ _).settled_bind _).trans ?_
    simp only [values, settled_bind, settled_pushIf, settled_pure, stable, bind_eq_bind,
      bind_some, if_true, Option.toList_some]
    refine congrArg _ (funext fun value => ?_)
    split_ifs <;> rfl
  · rfl

theorem filter_not_eq_nil_iff {α : Type} {p : α → Bool} {list : List α} :
    (list.filter fun member => !p member) = [] ↔ list.all p = true := by
  simp [List.filter_eq_nil_iff]

/-- What the loop makes of an override. -/
theorem settled_validateOverride (path : Text) (name : OverrideLayer) (ruleIds : List Text) (value : JsValue)
    (state : LayerState) :
    (validateOverride name ruleIds path value state).settled.map LayerState.admitted =
      (readOverride name ruleIds value).bind (state.admitted.accept (·.id) overrideKey) := by
  unfold validateOverride readOverride
  cases value with
  | object fields =>
    dsimp only
    cases (get fields (js "id")).text? with
    | none => rfl
    | some id =>
      cases get fields (js "source") with
      | object sourceFields =>
        have sources : (overrideSource sourceFields (path ++ js ".source")).settled = _ :=
          overrideSource_alike _ _ []
        simp only [settled_bind, settled_pushIf, settled_map, sources, filter_not_eq_nil_iff]
        cases stable : fitsSafeUtf8 id 256 && isStableId id with
        | false => rfl
        | true =>
          cases (overrideSource sourceFields []).settled with
          | none => rfl
          | some source =>
            cases source with
            | none => cases (keys fields).all _ <;> rfl
            | some source =>
              cases (keys fields).all _ with
              | false => rfl
              | true =>
                cases layer : name.isLayerOf source with
                | false => simp [layer, guard]
                | true =>
                  simp only [settled_classifyOverride ruleIds fields source _ _ stable, layer, guard,
                    Option.any_some, join_some, bind_eq_bind, Option.pure_def,
                    bind_some, if_true, Bool.true_eq_false, if_false, true_and]
                  cases (validateTarget (get fields (js "target")) [] ruleIds
                    noProvider).settled.join with
                  | none => split_ifs <;> rfl
                  | some target =>
                    simp only [bind_some]
                    cases (validateValue (get fields (js "value")) target []
                      noProvider).settled.join with
                    | none => split_ifs <;> rfl
                    | some value =>
                      simp only [bind_some, Admitted.accept, overrideKey, LayerState.admitted]
                      by_cases known : id ∈ state.seenIds <;>
                        by_cases met : targetKey target ∈ state.seenTargets <;>
                          simp [known, met, LayerState.admitted]
      | _ => rfl
  | _ => rfl

/-- The loop over the overrides of a layer is a register that they are admitted to. -/
theorem settled_validateOverrides {name : OverrideLayer} {ruleIds : List Text} {index : Nat}
    {items : List JsValue} {state : LayerState} :
    (validateOverrides name ruleIds index items state).settled.map LayerState.admitted =
      state.admitted.admitAll (readOverride name ruleIds) (·.id) overrideKey items := by
  induction items generalizing index state with
  | nil => rfl
  | cons item rest ih =>
    have step := settled_validateOverride (itemPath (js "$" ++ name.text) index) name ruleIds item state
    rw [validateOverrides, settled_bind, Admitted.admitAll, bind_eq_bind, bind_eq_bind,
      ← bind_assoc, ← step, map_bind, bind_map]
    exact congrArg _ (funext fun state => ih)

end Layers

/-! ## Policies -/

section Policies

/-- A policy by itself, if nothing is wrong with it. -/
def readPolicy (ruleIds : List Text) (value : JsValue) : Option OrganizationPolicyEntry := do
  let record ← (exactObject value [] [js "authority", js "id", js "target", js "value"]
    noProvider).settled.join
  let id ← (requiredString record "id" [] noProvider 256).settled.join
  let authority ← (requiredString record "authority" [] noProvider 16).settled.join
  guard (isStableId id)
  let authority ← authority? authority
  let target ← (validateTarget (get record (js "target")) [] ruleIds noProvider).settled.join
  let value ← (validateValue (get record (js "value")) target [] noProvider).settled.join
  return { authority, id, target, value }

/-- The variables of the loop, as a register of policies. -/
def PolicyState.admitted (state : PolicyState) : Admitted Text OrganizationPolicyEntry :=
  ⟨state.ids, state.targets, state.policies⟩

def policyKey (policy : OrganizationPolicyEntry) : Text := targetKey policy.target

variable {path : Text} {options : OrganizationPolicyLocationProvider}

/-- What the loop makes of a policy. -/
theorem settled_validatePolicy (ruleIds : List Text) (value : JsValue) (state : PolicyState) :
    (validatePolicy ruleIds options path value state).settled.map PolicyState.admitted =
      (readPolicy ruleIds value).bind (state.admitted.accept (·.id) policyKey) := by
  have records := exactObject_alike path [] options noProvider value [js "authority", js "id", js "target", js "value"]
  unfold validatePolicy readPolicy
  rw [(exactObject_delivers _ _ _ _).settled_bind, records]
  cases (exactObject value [] _ noProvider).settled.join with
  | none => rfl
  | some record =>
    have ids := requiredString_alike path [] options noProvider record "id" 256
    have authorities := requiredString_alike path [] options noProvider record "authority" 16
    simp only [bind_some, bind_eq_bind]
    rw [(requiredString_delivers _ _ _ _ _).settled_bind, ids]
    cases (requiredString record "id" [] noProvider 256).settled.join with
    | none => rfl
    | some id =>
      simp only [bind_some]
      rw [(requiredString_delivers _ _ _ _ _).settled_bind, authorities]
      cases (requiredString record "authority" [] noProvider 16).settled.join with
      | none => rfl
      | some authority =>
        simp only [bind_some, validStableId]
        cases isStableId id with
        | false => rfl
        | true =>
          have targets : (validateTarget (get record (js "target")) (path ++ js ".target")
              ruleIds options).settled = _ := validateTarget_alike _ [] _ noProvider _ ruleIds
          have values : ∀ target, (validateValue (get record (js "value")) target
              (path ++ js ".value") options).settled = _ :=
            fun target => validateValue_alike _ [] _ noProvider _ target
          rw [if_pos rfl, settled_bind, settled_pure, bind_some]
          simp only [settled_bind, settled_pushIf, if_true]
          have target := validateTarget_delivers (path ++ js ".target") options
            (get record (js "target")) ruleIds
          have value : ∀ target (f : _ → Option PolicyState), _ := fun target =>
            (validateValue_delivers (path ++ js ".value") options (get record (js "value"))
              target).bind_join
          simp only [target.bind_join, settled_bind, value]
          simp only [targets, values, settled_pushIf, settled_pure]
          obtain unknown | ⟨authority, known⟩ := (authority? authority).eq_none_or_eq_some
          · simp [unknown]
          · simp only [known, bind_some]
            cases (validateTarget (get record (js "target")) [] ruleIds
              noProvider).settled.join with
            | none => split_ifs <;> rfl
            | some target =>
              simp only [bind_some]
              cases (validateValue (get record (js "value")) target []
                noProvider).settled.join with
              | none => split_ifs <;> rfl
              | some value =>
                simp only [bind_some, Admitted.accept, policyKey, PolicyState.admitted]
                by_cases used : id ∈ state.ids <;> by_cases met : targetKey target ∈ state.targets <;>
                  simp [used, met, PolicyState.admitted]

/-- The loop over the policies of a pack is a register that they are admitted to. -/
theorem settled_validatePolicies {ruleIds : List Text} {index : Nat} {items : List JsValue}
    {state : PolicyState} :
    (validatePolicies ruleIds options index items state).settled.map PolicyState.admitted =
      state.admitted.admitAll (readPolicy ruleIds) (·.id) policyKey items := by
  induction items generalizing index state with
  | nil => rfl
  | cons item rest ih =>
    rw [validatePolicies, settled_bind, Admitted.admitAll, bind_eq_bind, bind_eq_bind,
      ← bind_assoc, ← settled_validatePolicy, map_bind, bind_map]
    exact congrArg _ (funext fun state => ih)

end Policies

end OrganizationPolicy

end AgentContextLint
