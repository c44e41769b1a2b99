import AgentContextLint.Core.ConfigurationContracts
import AgentContextLint.Core.IrValidation
import AgentContextLint.Lib.Json
import AgentContextLint.Lib.StatefulRuns
import AgentContextLint.Lib.UnitPattern

/-!
# The configuration of efficiency

Model of the part of `packages/core/src/configuration-validation.ts` that validates `efficiency`,
over the JSON boundary of `contract-validation.ts` with the limits of a configuration. No source
locations are looked up, as `normalizeConfiguration` looks up none.

What is accepted has weights from 0 to 100 that sum up to 100, budgets up to ten million tokens and
thresholds that fall (`Accepted`).
-/

namespace AgentContextLint

open Utf16 Utf8 Checked StatefulRuns
open JsValue (get object)

inductive EfficiencyComponentKey
  | budgetFit
  | scopePrecision
  | nonRedundancy
  | reachability
  | instructionDensity
  | crossAgentConsistency
  deriving DecidableEq

namespace EfficiencyComponentKey

/-- `EFFICIENCY_COMPONENT_KEYS` -/
def all : List EfficiencyComponentKey :=
  [budgetFit, scopePrecision, nonRedundancy, reachability, instructionDensity,
    crossAgentConsistency]

def text : EfficiencyComponentKey → String
  | budgetFit => "budgetFit"
  | scopePrecision => "scopePrecision"
  | nonRedundancy => "nonRedundancy"
  | reachability => "reachability"
  | instructionDensity => "instructionDensity"
  | crossAgentConsistency => "crossAgentConsistency"

end EfficiencyComponentKey

inductive ConfigurationValidationCode
  | aliasForbidden
  | duplicateKey
  | invalidValue
  | invalidYaml
  | missingField
  | resourceLimit
  | unknownField

structure ConfigurationValidationIssue where
  code : ConfigurationValidationCode
  message : Text
  path : Text

structure EfficiencyGradeThresholds where
  a : Int
  b : Int
  c : Int
  d : Int

structure EfficiencyConfiguration where
  alwaysOnTokens : Int
  effectiveP95Tokens : Int
  componentWeights : EfficiencyComponentKey → Int
  gradeThresholds : EfficiencyGradeThresholds
  scoreVersion : Text
  tokenizer : Text

namespace EfficiencyConfiguration

/-! ## The JSON boundary -/

structure JsonValidationLimits where
  maximumContainerEntries : Nat
  maximumKeyBytes : Nat
  maximumStringBytes : Nat
  maximumTotalStringBytes : Nat
  maximumValues : Nat

/-- `CONFIGURATION_VALUE_LIMITS` -/
def configurationValueLimits : JsonValidationLimits where
  maximumContainerEntries := 2048
  maximumKeyBytes := 256
  maximumStringBytes := 16384
  maximumTotalStringBytes := 65536
  maximumValues := 4096

/-- What has been inspected so far. -/
structure Inspected where
  stringBytes : Nat
  values : Nat

abbrev Inspection := StateT Inspected (Except ConfigurationValidationIssue)

def number (n : Nat) : Text := Netstring.decimalText n

def reportIf (condition : Prop) [Decidable condition] (code : ConfigurationValidationCode)
    (path message : Text) : Inspection Unit := stopIf condition ⟨code, message, path⟩

def report (code : ConfigurationValidationCode) (path message : Text) : Inspection Unit :=
  stop ⟨code, message, path⟩

variable (limits : JsonValidationLimits)

def inspectString (candidate path : Text) (maximumBytes : Nat) : Inspection Unit := do
  reportIf (maximumBytes < candidate.length) .resourceLimit path
    (js "must not exceed " ++ number maximumBytes ++ js " UTF-8 bytes")
  reportIf (¬ wellFormed candidate) .invalidValue path (js "must be well-formed Unicode")
  reportIf (maximumBytes < byteLength candidate) .resourceLimit path
    (js "must not exceed " ++ number maximumBytes ++ js " UTF-8 bytes")
  modify fun seen => { seen with stringBytes := seen.stringBytes + byteLength candidate }
  reportIf (limits.maximumTotalStringBytes < (← get).stringBytes) .resourceLimit path
    (js "JSON text must not exceed " ++ number limits.maximumTotalStringBytes ++
      js " cumulative UTF-8 bytes")

def countValue (path : Text) : Inspection Unit := do
  modify fun seen => { seen with values := seen.values + 1 }
  reportIf (limits.maximumValues < (← get).values) .resourceLimit path
    (js "must not contain more than " ++ number limits.maximumValues ++ js " JSON values")

def enterContainer (path : Text) (depth entries : Nat) (kind plural : String) :
    Inspection Unit := do
  reportIf (IrValidation.maxJsonNestingDepth ≤ depth) .invalidValue path IrValidation.depthMessage
  reportIf (limits.maximumContainerEntries < entries) .resourceLimit path
    (js kind ++ js " must not contain more than " ++ number limits.maximumContainerEntries ++
      js " " ++ js plural)

def inspectNumber (path : Text) : JsNumber → Inspection Unit
  | .integer _ => pure ()
  | .fractional _ => pure ()
  | .negativeZero | .notFinite =>
    report .invalidValue path (js "must be a finite JSON number other than negative zero")

mutual

/-- `validateJsonValue` up to its first issue. -/
def inspectValue (path : Text) (depth : Nat) : JsValue → Inspection Unit
  | .null => countValue limits path
  | .boolean _ => countValue limits path
  | .string text => do
    countValue limits path
    inspectString limits text path limits.maximumStringBytes
  | .number n => do
    countValue limits path
    inspectNumber path n
  | .undefined => do
    countValue limits path
    report .invalidValue path (js "must be a JSON value")
  | .exotic kind => do
    countValue limits path
    report .invalidValue path (IrValidation.exoticMessage depth kind)
  | .array items => do
    countValue limits path
    enterContainer limits path depth items.length "arrays" "entries"
    inspectItems path depth 0 items
  | .object fields => do
    countValue limits path
    enterContainer limits path depth fields.length "objects" "properties"
    inspectFields path depth fields

def inspectItems (path : Text) (depth index : Nat) : List JsValue → Inspection Unit
  | [] => pure ()
  | item :: rest => do
    inspectString limits (number index) path limits.maximumKeyBytes
    inspectValue (IrValidation.itemPath path index) (depth + 1) item
    inspectItems path depth (index + 1) rest

def inspectFields (path : Text) (depth : Nat) : List (Text × JsValue) → Inspection Unit
  | [] => pure ()
  | (key, value) :: rest => do
    inspectString limits key path limits.maximumKeyBytes
    inspectValue (path ++ js "." ++ key) (depth + 1) value
    inspectFields path depth rest

end

def firstJsonIssue (value : JsValue) : Option ConfigurationValidationIssue :=
  match inspectValue limits (js "$") 0 value ⟨0, 0⟩ with
  | .error issue => some issue
  | .ok _ => none

/-! ## Readers -/

abbrev Validated (α : Type) := Checked ConfigurationValidationIssue α

abbrev Fields := List (Text × JsValue)

/-- `^[A-Za-z][A-Za-z0-9]*$` -/
def safePathProperty : Pattern CodeUnit :=
  .seq (.unit UnitPattern.isLetter) (.star (.unit UnitPattern.isAlphanumeric))

def appendConfigurationPathProperty (path property : Text) : Text :=
  if safePathProperty.matchesAll property ∧
      property ∉ [js "__proto__", js "constructor", js "prototype"] then
    path ++ js "." ++ property
  else path ++ js "[" ++ Json.quote property ++ js "]"

def objectValue (value : JsValue) (path : String) (keys : List String) : Validated Fields :=
  match value with
  | .object fields =>
    ⟨fields, ((JsValue.keys fields).filter fun key => !(keys.map js).contains key).map fun key =>
      ⟨.unknownField, js "is not part of configuration version 1",
        appendConfigurationPathProperty (js path) key⟩⟩
  | _ => ⟨[], [⟨.invalidValue, js "must be an object", js path⟩]⟩

/-- An object that may be missing; without one there are no fields. -/
def optionalObject (value : JsValue) (path : String) (keys : List String) : Validated Fields :=
  if value.isUndefined then pure [] else objectValue value path keys

/-- An integer that `Number.isSafeInteger` accepts; negative zero is one. -/
def safeInteger? : JsValue → Option Int
  | .number (.integer n) => if n.natAbs ≤ IrValidation.maxSafeInteger then some n else none
  | .number .negativeZero => some 0
  | _ => none

def optionalInteger (record : Fields) (key path : String) (fallback minimum maximum : Int) :
    Validated Int :=
  let value := get record (js key)
  if value.isUndefined then pure fallback
  else
    match (safeInteger? value).filter fun n => minimum ≤ n ∧ n ≤ maximum with
    | some n => pure n
    | none => ⟨fallback, [⟨.invalidValue, js "must be a safe integer from " ++
        number minimum.toNat ++ js " through " ++ number maximum.toNat,
        IrValidation.fieldPath (js path) key⟩]⟩

def optionalEnum (record : Fields) (key path : String) (fallback : Text)
    (values : List Text) : Validated Text :=
  let value := get record (js key)
  if value.isUndefined then pure fallback
  else
    match value.text?.filter fun text => text ∈ values with
    | some text => pure text
    | none => ⟨fallback, [⟨.invalidValue, js "has an unsupported value",
        IrValidation.fieldPath (js path) key⟩]⟩

/-! ## Efficiency -/

def defaultWeight : EfficiencyComponentKey → Int
  | .budgetFit => 30
  | .scopePrecision => 25
  | .nonRedundancy => 20
  | .reachability => 10
  | .instructionDensity => 10
  | .crossAgentConsistency => 5

def weightsPath : String := "$.efficiency.componentWeights"

def gradesPath : String := "$.efficiency.gradeThresholds"

def budgetsPath : String := "$.efficiency.budgets"

def validateGrades (grades : Fields) : Validated EfficiencyGradeThresholds := do
  let a ← optionalInteger grades "A" gradesPath 90 0 100
  let b ← optionalInteger grades "B" gradesPath 80 0 100
  let c ← optionalInteger grades "C" gradesPath 70 0 100
  let d ← optionalInteger grades "D" gradesPath 55 0 100
  pushIf (¬ (b < a ∧ c < b ∧ d < c))
    ⟨.invalidValue, js "must satisfy A > B > C > D", js gradesPath⟩
  return ⟨a, b, c, d⟩

def validateWeights (componentWeights : Fields) : Validated (List Int) :=
  mapIdx (fun _ key => optionalInteger componentWeights (EfficiencyComponentKey.text key)
    weightsPath (defaultWeight key) 0 100) 0 EfficiencyComponentKey.all

/-- `normalizedComponentWeights[key]` -/
def weightOf (weights : List Int) (key : EfficiencyComponentKey) : Int :=
  weights.getD (EfficiencyComponentKey.all.idxOf key) 0

def validateEfficiency (value : JsValue) : Validated EfficiencyConfiguration := do
  let efficiency ← optionalObject value "$.efficiency"
    ["budgets", "componentWeights", "gradeThresholds", "scoreVersion", "tokenizer"]
  let budgets ← optionalObject (get efficiency (js "budgets")) budgetsPath
    ["alwaysOnTokens", "effectiveP95Tokens"]
  let grades ← optionalObject (get efficiency (js "gradeThresholds")) gradesPath
    ["A", "B", "C", "D"]
  let componentWeights ← optionalObject (get efficiency (js "componentWeights"))
    weightsPath (EfficiencyComponentKey.all.map EfficiencyComponentKey.text)
  let thresholds ← validateGrades grades
  let weights ← validateWeights componentWeights
  pushIf ((EfficiencyComponentKey.all.map (weightOf weights)).sum ≠ 100)
    ⟨.invalidValue, js "must sum to exactly 100", js weightsPath⟩
  let alwaysOnTokens ← optionalInteger budgets "alwaysOnTokens" budgetsPath 2500 0 10000000
  let effectiveP95Tokens ← optionalInteger budgets "effectiveP95Tokens" budgetsPath 5000 0 10000000
  let scoreVersion ← optionalEnum efficiency "scoreVersion" "$.efficiency" (js "1.0.0")
    efficiencyScoreVersions
  let tokenizer ← optionalEnum efficiency "tokenizer" "$.efficiency" (js "estimate")
    efficiencyTokenizers
  return {
    alwaysOnTokens, effectiveP95Tokens, scoreVersion, tokenizer
    componentWeights := weightOf weights
    gradeThresholds := thresholds }

/-- The first issue of the configuration, or what its `efficiency` is normalized to. -/
def validateConfiguration (efficiency : JsValue) :
    Except ConfigurationValidationIssue EfficiencyConfiguration :=
  let root := object [(js "efficiency", efficiency),
    (js "version", .number (.integer configurationContractVersion))]
  match firstJsonIssue configurationValueLimits root with
  | some issue => .error issue
  | none =>
    let validated := validateEfficiency efficiency
    match validated.issues with
    | issue :: _ => .error issue
    | [] => .ok validated.value

/-! ## Accepted configurations -/

/-- With or without an issue, an integer stays within its bounds. -/
theorem optionalInteger_bounds (record : Fields) (key path : String) {fallback minimum maximum : Int}
    (inside : minimum ≤ fallback ∧ fallback ≤ maximum) :
    minimum ≤ (optionalInteger record key path fallback minimum maximum).value ∧
      (optionalInteger record key path fallback minimum maximum).value ≤ maximum := by
  unfold optionalInteger
  dsimp only
  split_ifs
  · exact inside
  · split
    · next n found => exact of_decide_eq_true (Option.filter_eq_some_iff.mp found).2
    · exact inside

structure AcceptedThresholds (thresholds : EfficiencyGradeThresholds) : Prop where
  most : thresholds.a ≤ 100
  ab : thresholds.b < thresholds.a
  bc : thresholds.c < thresholds.b
  cd : thresholds.d < thresholds.c
  least : 0 ≤ thresholds.d

structure Accepted (configuration : EfficiencyConfiguration) : Prop where
  alwaysOn : 0 ≤ configuration.alwaysOnTokens ∧ configuration.alwaysOnTokens ≤ 10000000
  effective : 0 ≤ configuration.effectiveP95Tokens ∧ configuration.effectiveP95Tokens ≤ 10000000
  weights : ∀ key, 0 ≤ configuration.componentWeights key
  sum : (EfficiencyComponentKey.all.map configuration.componentWeights).sum = 100
  thresholds : AcceptedThresholds configuration.gradeThresholds

theorem acceptedThresholds_of_clean {grades : Fields} (clean : (validateGrades grades).Clean) :
    AcceptedThresholds (validateGrades grades).value := by
  unfold validateGrades at clean ⊢
  simp only [clean_bind, clean_pushIf, not_not] at clean
  rcases clean with ⟨_, _, _, _, falling, _⟩
  exact ⟨(optionalInteger_bounds grades "A" gradesPath (by decide)).2, falling.1, falling.2.1,
    falling.2.2, (optionalInteger_bounds grades "D" gradesPath (by decide)).1⟩

theorem weights_natural (componentWeights : Fields) (key : EfficiencyComponentKey) :
    0 ≤ weightOf (validateWeights componentWeights).value key := by
  have fallback : ∀ key, 0 ≤ defaultWeight key ∧ defaultWeight key ≤ 100 := by
    intro key
    cases key <;> decide
  unfold weightOf validateWeights
  rw [value_mapIdx]
  cases found : (EfficiencyComponentKey.all.mapIdx fun i key =>
      (optionalInteger componentWeights (EfficiencyComponentKey.text key) weightsPath
        (defaultWeight key) 0 100).value)[EfficiencyComponentKey.all.idxOf key]? with
  | none => rw [List.getD_eq_getElem?_getD, found, Option.getD_none]
  | some weight =>
    rw [List.getD_eq_getElem?_getD, found, Option.getD_some]
    rcases List.mem_mapIdx.mp (List.mem_of_getElem? found) with ⟨index, _, rfl⟩
    exact (optionalInteger_bounds componentWeights _ weightsPath (fallback _)).1

theorem accepted_of_clean {value : JsValue} (clean : (validateEfficiency value).Clean) :
    Accepted (validateEfficiency value).value := by
  unfold validateEfficiency at clean ⊢
  simp only [clean_bind, clean_pushIf, not_not] at clean
  rcases clean with ⟨_, _, _, _, grades, _, sum, _⟩
  exact ⟨optionalInteger_bounds _ _ budgetsPath (by decide),
    optionalInteger_bounds _ _ budgetsPath (by decide), weights_natural _, sum,
    acceptedThresholds_of_clean grades⟩

theorem accepted_of_validateConfiguration {efficiency : JsValue}
    {configuration : EfficiencyConfiguration}
    (validated : validateConfiguration efficiency = .ok configuration) : Accepted configuration := by
  unfold validateConfiguration at validated
  dsimp only at validated
  split at validated
  · cases validated
  · split at validated
    · cases validated
    · next none =>
        cases validated
        exact accepted_of_clean none

end EfficiencyConfiguration

end AgentContextLint
