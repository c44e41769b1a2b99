import AgentContextLint.Efficiency.EfficiencyScoreSpecification

/-!
# The efficiency score

Model of `packages/efficiency/src/context-efficiency-score.ts`. The metrics are the record that
`analyzeContextEfficiencyMetrics` issues, with what the score reads of it. The digests of a score
and its constant fields are left out, as nothing is computed from them.

Numbers are whole; a sum or a product that leaves the safe range stops the calculation, as does a
number that is missing.
-/

namespace AgentContextLint

open Utf16 Utf8 Metered HalfUp

/-! ## Metrics -/

inductive MetricState
  | complete
  | empty
  | measured
  | partly
  | sampled
  | unknown

inductive SamplingStrategy
  | exhaustive
  | stratified
  deriving DecidableEq

structure ProfileTargetIdentity where
  clientVersion : Option Text
  profileId : Text
  profileVersion : Text
  specSnapshotId : Text
  surfaceId : Text

structure ProfileTargetTokenObservation where
  alwaysOnTokens : Int
  includedInStatistics : Bool

inductive DistributionState
  | complete
  | empty
  | partly
  deriving DecidableEq

inductive EvidenceState
  | complete
  | partly
  deriving DecidableEq

structure ProfileTargetDistribution where
  profile : ProfileTargetIdentity
  samplingState : EvidenceState
  samplingStrategy : SamplingStrategy
  state : DistributionState
  /-- The 95th percentile of the statistics. -/
  p95 : Option Int
  targets : List ProfileTargetTokenObservation

inductive BroadScopeDocumentState
  | complete
  | partly
  | unknown

structure BroadScopeDocumentMetric where
  coverageBasisPoints : Option Int
  documentId : Text
  effectiveTokens : Int
  path : Text
  state : BroadScopeDocumentState

structure ProfileBroadScopeMetric where
  documents : List BroadScopeDocumentMetric
  profileKey : Text
  state : EvidenceState

inductive DeadScopeState
  | measured
  | unknown
  deriving DecidableEq

structure ProfileDeadScopeMetric where
  profileKey : Text
  state : DeadScopeState
  tokens : Option Int

structure ProfileAmplificationMetric where
  /-- The 95th percentile of the statistics. -/
  p95BasisPoints : Option Int
  profileKey : Text
  state : DistributionState

structure DocumentDensityMetric where
  actionablePerThousandBasisPoints : Option Int
  documentId : Text
  path : Text
  state : DistributionState
  tokens : Int

structure DensityMetrics where
  actionablePerThousandBasisPoints : Option Int
  documents : List DocumentDensityMetric
  rawTokens : Int
  state : DistributionState

structure CrossProfileDivergenceMetrics where
  divergentPairTargetCount : Int
  expectedPairTargetCount : Int
  indeterminatePairTargetCount : Int
  observedPairTargetCount : Int
  state : EvidenceState

structure DuplicateMetrics where
  exactRedundantTokens : Int
  nearSimilarityCandidateTokens : Int

inductive TokenizerMeasurement
  | estimate
  | exact
  deriving DecidableEq

structure ContextEfficiencyMetrics where
  amplification : List ProfileAmplificationMetric
  broadScope : List ProfileBroadScopeMetric
  deadScope : List ProfileDeadScopeMetric
  density : DensityMetrics
  distributions : List ProfileTargetDistribution
  divergence : CrossProfileDivergenceMetrics
  duplication : DuplicateMetrics
  tokenizerMeasurement : TokenizerMeasurement

/-! ## Scores -/

inductive EfficiencyScoreCaveatCode
  | estimatedTokenizer
  | samplingStratified
  | zeroWeightComponentUnavailable
  deriving DecidableEq

def EfficiencyScoreCaveatCode.text : EfficiencyScoreCaveatCode → Text
  | .estimatedTokenizer => js "estimated-tokenizer"
  | .samplingStratified => js "sampling-stratified"
  | .zeroWeightComponentUnavailable => js "zero-weight-component-unavailable"

inductive EfficiencyScoreUncertaintyCode
  | amplificationPartial
  | broadScopePartial
  | deadScopeUnknown
  | densityPartial
  | distributionEmpty
  | distributionPartial
  | divergenceIndeterminate
  | divergencePartial
  | samplingPartial
  deriving DecidableEq

def EfficiencyScoreUncertaintyCode.text : EfficiencyScoreUncertaintyCode → Text
  | .amplificationPartial => js "amplification-partial"
  | .broadScopePartial => js "broad-scope-partial"
  | .deadScopeUnknown => js "dead-scope-unknown"
  | .densityPartial => js "density-partial"
  | .distributionEmpty => js "distribution-empty"
  | .distributionPartial => js "distribution-partial"
  | .divergenceIndeterminate => js "divergence-indeterminate"
  | .divergencePartial => js "divergence-partial"
  | .samplingPartial => js "sampling-partial"

inductive EvidenceUnit
  | basisPoints
  | count

structure EfficiencyScoreEvidenceReference where
  documentId : Option Text
  id : String
  path : Option Text
  profileKey : Option Text
  state : MetricState
  tokens : Option Int
  value : Option Int
  valueUnit : Option EvidenceUnit

structure NormalizedInput where
  denominator : Option Int
  evidence : List EfficiencyScoreEvidenceReference
  inputBasisPoints : Option Int
  numerator : Option Int
  reasonCodes : List EfficiencyScoreUncertaintyCode
  sampled : Bool

inductive InputState
  | complete
  | sampled
  | unavailable
  deriving DecidableEq

/-- The result of an input, with the fields of its specification and of its normalized value. -/
structure EfficiencyScoreInputResult where
  specification : EfficiencyScoreInputSpecification
  normalized : NormalizedInput
  penaltyBasisPoints : Option Int
  state : InputState

inductive ComponentState
  | complete
  | ignoredUnavailable
  | sampled
  | unavailable
  deriving DecidableEq

structure EfficiencyComponentScore where
  id : EfficiencyComponentKey
  inputs : List EfficiencyScoreInputResult
  reasonCodes : List EfficiencyScoreUncertaintyCode
  score : Option Int
  scoreBasisPoints : Option Int
  state : ComponentState
  weight : Int

inductive EfficiencyScoreState
  | caveated
  | complete
  | unavailable

inductive EfficiencyScoreConfidence
  | completeStaticEvidence
  | limitedStaticEvidence
  | unavailable

structure ContextEfficiencyScore where
  caveatCodes : List EfficiencyScoreCaveatCode
  components : List EfficiencyComponentScore
  confidence : EfficiencyScoreConfidence
  grade : Option EfficiencyGrade
  score : Option Int
  specification : EfficiencyScoreSpecification
  state : EfficiencyScoreState
  tokenizerMeasurement : TokenizerMeasurement
  uncertaintyCodes : List EfficiencyScoreUncertaintyCode

namespace EfficiencyScore

/-! ## Arithmetic -/

def maxScoreEvidence : Int := 1000000

/-- `Number.isSafeInteger` -/
def isSafe (value : Int) : Prop := -maxSafeInteger ≤ value ∧ value ≤ maxSafeInteger

instance (value : Int) : Decidable (isSafe value) := inferInstanceAs (Decidable (_ ∧ _))

def safe (result : Int) (label : String) : Except EfficiencyScoreError Int := do
  failIf (¬ isSafe result) .resourceLimit (js label ++ js " exceeds safe range")
  return result

def safeAdd (left right : Int) (label : String) : Except EfficiencyScoreError Int :=
  safe (left + right) label

def safeMultiply (left right : Int) (label : String) : Except EfficiencyScoreError Int :=
  safe (left * right) label

def requiredNumber (value : Option Int) (label : String) : Except EfficiencyScoreError Int :=
  match value with
  | some number => .ok number
  | none => fail .invalidMetrics (js label ++ js " is unavailable")

/-- A sum of products, the factors of which have to be there. -/
def weightedSum {α : Type} (value : α → Option Int) (weight : α → Int) (label : String) :
    List α → Except EfficiencyScoreError Int
  | [] => return 0
  | a :: rest => do
    let number ← requiredNumber (value a) label
    let sum ← weightedSum value weight label rest
    return number * weight a + sum

/-- `Math.max` of some numbers; of none it is no integer. -/
def maximum (values : List Int) : Except EfficiencyScoreError Int :=
  match values.max? with
  | some greatest => .ok greatest
  | none => fail .invalidInput (js "numerator must be a non-negative safe integer no greater than " ++
      Netstring.decimalText maxSafeInteger.toNat)

def sortedCodes {κ : Type} [DecidableEq κ] (text : κ → Text) (codes : List κ) : List κ :=
  Sorting.sortBy (fun left right => compareUnits (text left) (text right)) codes.dedup

def sortedReasons : List EfficiencyScoreUncertaintyCode → List EfficiencyScoreUncertaintyCode :=
  sortedCodes EfficiencyScoreUncertaintyCode.text

/-! ## References -/

def profileKey (profile : ProfileTargetIdentity) : Text :=
  (js "|").intercalate <| [profile.profileId, profile.surfaceId, profile.profileVersion,
    profile.specSnapshotId, profile.clientVersion.getD (js "<null>")].map fun value =>
      Netstring.decimalText (byteLength value) ++ js ":" ++ value

def profileRef (id : String) (profileKey : Text) (state : MetricState) (tokens : Option Int)
    (value : Option Int) (valueUnit : Option EvidenceUnit) : EfficiencyScoreEvidenceReference :=
  ⟨none, id, none, some profileKey, state, tokens, value, value.bind fun _ => valueUnit⟩

def aggregateRef (id : String) (state : MetricState) (tokens value : Option Int)
    (valueUnit : Option EvidenceUnit) : EfficiencyScoreEvidenceReference :=
  ⟨none, id, none, none, state, tokens, value, value.bind fun _ => valueUnit⟩

def broadScopeState : BroadScopeDocumentState → MetricState
  | .complete => .complete
  | .partly => .partly
  | .unknown => .unknown

def documentRef (id : String) (profileKey : Text) (document : BroadScopeDocumentMetric) :
    EfficiencyScoreEvidenceReference :=
  ⟨some document.documentId, id, some document.path, some profileKey,
    broadScopeState document.state, some document.effectiveTokens, document.coverageBasisPoints,
    document.coverageBasisPoints.map fun _ => .basisPoints⟩

def distributionState : DistributionState → MetricState
  | .complete => .complete
  | .empty => .empty
  | .partly => .partly

def evidenceState : EvidenceState → MetricState
  | .complete => .complete
  | .partly => .partly

def deadScopeState : DeadScopeState → MetricState
  | .measured => .measured
  | .unknown => .unknown

/-! ## Inputs -/

def nearestRank95 (values : List Int) : Except EfficiencyScoreError (Option Int) :=
  if values = [] then return none
  else do
    let sorted := Sorting.sortBy compare values
    return some (← requiredNumber sorted[(sorted.length * 95 + 99) / 100 - 1]? "p95 observation")

def samplingReasons (distributions : List ProfileTargetDistribution) :
    List EfficiencyScoreUncertaintyCode :=
  sortedReasons <| distributions.flatMap fun distribution =>
    (if distribution.samplingState = .partly then [.samplingPartial] else []) ++
    (if distribution.state = .partly then [.distributionPartial] else []) ++
    (if distribution.state = .empty then [.distributionEmpty] else [])

def isSampled (metrics : ContextEfficiencyMetrics) : Bool :=
  metrics.distributions.any fun distribution => distribution.samplingStrategy = .stratified

def unavailable (reasons : List EfficiencyScoreUncertaintyCode)
    (evidence : List EfficiencyScoreEvidenceReference) : NormalizedInput :=
  ⟨none, evidence, none, none, sortedReasons reasons, false⟩

def measured (numerator denominator : Int) (evidence : List EfficiencyScoreEvidenceReference)
    (sampled : Bool) : Except EfficiencyScoreError NormalizedInput := do
  let inputBasisPoints ← efficiencyRatioBasisPoints numerator denominator
  return ⟨some denominator, evidence, some inputBasisPoints, some numerator, [], sampled⟩

inductive BudgetKind
  | always
  | effective

def BudgetKind.id : BudgetKind → String
  | .always => "always-p95"
  | .effective => "effective-p95"

def budgetOf (specification : EfficiencyScoreSpecification) : BudgetKind → Int
  | .always => specification.alwaysOnTokens
  | .effective => specification.effectiveP95Tokens

def budgetReference (kind : BudgetKind) (distribution : ProfileTargetDistribution) :
    Except EfficiencyScoreError EfficiencyScoreEvidenceReference := do
  let value ← match kind with
    | .always => nearestRank95 ((distribution.targets.filter (·.includedInStatistics)).map
        (·.alwaysOnTokens))
    | .effective => pure distribution.p95
  let state := match distribution.state with
    | .empty => MetricState.empty
    | .partly => .partly
    | .complete => if distribution.samplingStrategy = .stratified then .sampled else .complete
  return profileRef kind.id (profileKey distribution.profile) state value none none

variable (metrics : ContextEfficiencyMetrics)

def budgetInput (specification : EfficiencyScoreSpecification) (kind : BudgetKind) :
    Except EfficiencyScoreError NormalizedInput := do
  let reasons := samplingReasons metrics.distributions
  let evidence ← metrics.distributions.mapM (budgetReference kind)
  if reasons ≠ [] then return unavailable reasons evidence
  let tokens ← evidence.mapM fun entry => requiredNumber entry.tokens "budget observation"
  measured (← maximum tokens) (budgetOf specification kind) evidence (isSampled metrics)

/-- Tokens count in the numerator if their document covers enough. -/
def addBroad (numerator effectiveTokens coverage : Int) : Except EfficiencyScoreError Int :=
  if broadScopeCutoffBasisPoints ≤ coverage then
    safeAdd numerator effectiveTokens "broad-scope numerator"
  else return numerator

def broadScopeSums : (numerator denominator : Int) → List BroadScopeDocumentMetric →
    Except EfficiencyScoreError (Int × Int)
  | numerator, denominator, [] => return (numerator, denominator)
  | numerator, denominator, document :: rest => do
    let denominator ← safeAdd denominator document.effectiveTokens "broad-scope denominator"
    let coverage ← requiredNumber document.coverageBasisPoints "broad-scope coverage"
    let numerator ← addBroad numerator document.effectiveTokens coverage
    broadScopeSums numerator denominator rest

def broadScopeInput (metrics : ContextEfficiencyMetrics) :
    Except EfficiencyScoreError NormalizedInput := do
  let evidence := metrics.broadScope.flatMap fun profile =>
    profile.documents.map (documentRef "broad-scope-document" profile.profileKey)
  if ∃ profile ∈ metrics.broadScope, profile.state = .partly then
    return unavailable [.broadScopePartial] evidence
  let (numerator, denominator) ← broadScopeSums 0 0 (metrics.broadScope.flatMap (·.documents))
  measured numerator denominator evidence (isSampled metrics)

/-- `duplicateInput` of a kind with its number of tokens. -/
def duplicateInput (id : String) (numerator : Int) :
    Except EfficiencyScoreError NormalizedInput := do
  if metrics.density.state = .partly then
    return unavailable [.densityPartial] [aggregateRef id .partly none none none]
  measured numerator metrics.density.rawTokens [aggregateRef id .complete (some numerator) none none]
    false

def deadScopeTokens : Int → List ProfileDeadScopeMetric → Except EfficiencyScoreError Int
  | sum, [] => return sum
  | sum, profile :: rest => do
    let tokens ← requiredNumber profile.tokens "dead-scope tokens"
    deadScopeTokens (← safeAdd sum tokens "dead-scope numerator") rest

def deadScopeInput (metrics : ContextEfficiencyMetrics) :
    Except EfficiencyScoreError NormalizedInput := do
  let evidence := metrics.deadScope.map fun profile =>
    profileRef "dead-scope-profile" profile.profileKey (deadScopeState profile.state) profile.tokens
      none none
  if ∃ profile ∈ metrics.deadScope, profile.state = .unknown then
    return unavailable [.deadScopeUnknown] evidence
  let numerator ← deadScopeTokens 0 metrics.deadScope
  let denominator ← safeMultiply metrics.density.rawTokens metrics.deadScope.length
    "dead-scope denominator"
  measured numerator denominator evidence false

def amplificationInput (metrics : ContextEfficiencyMetrics) :
    Except EfficiencyScoreError NormalizedInput := do
  let evidence := metrics.amplification.map fun profile =>
    profileRef "amplification-p95" profile.profileKey (distributionState profile.state) none
      profile.p95BasisPoints (some .basisPoints)
  if ∃ profile ∈ metrics.amplification, profile.state = .partly then
    return unavailable [.amplificationPartial] evidence
  let complete := metrics.amplification.filterMap (·.p95BasisPoints)
  if complete = [] then measured 0 0 evidence (isSampled metrics)
  else do
    let greatest ← maximum complete
    measured (max 0 (greatest - basisPoints)) greatest evidence (isSampled metrics)

def densityReference (document : DocumentDensityMetric) : EfficiencyScoreEvidenceReference :=
  ⟨some document.documentId, "density-document", some document.path, none,
    distributionState document.state, some document.tokens, document.actionablePerThousandBasisPoints,
    document.actionablePerThousandBasisPoints.map fun _ => .basisPoints⟩

def densityInput (metrics : ContextEfficiencyMetrics) :
    Except EfficiencyScoreError NormalizedInput := do
  let evidence := metrics.density.documents.map densityReference
  match metrics.density.state with
  | .partly => return unavailable [.densityPartial] evidence
  | .empty => measured 0 0 evidence false
  | .complete => do
    let observed ← requiredNumber metrics.density.actionablePerThousandBasisPoints
      "instruction density"
    measured (max 0 (densityTargetBasisPoints - observed)) densityTargetBasisPoints evidence false

def divergenceReasons (divergence : CrossProfileDivergenceMetrics) :
    List EfficiencyScoreUncertaintyCode :=
  (if divergence.state = .partly then [.divergencePartial] else []) ++
    if 0 < divergence.indeterminatePairTargetCount then [.divergenceIndeterminate] else []

def divergenceInput (metrics : ContextEfficiencyMetrics) :
    Except EfficiencyScoreError NormalizedInput := do
  let divergence := metrics.divergence
  let evidence := [aggregateRef "cross-profile-divergence" (evidenceState divergence.state)
    (some divergence.divergentPairTargetCount) (some divergence.observedPairTargetCount)
    (some .count)]
  if divergenceReasons divergence ≠ [] then
    return unavailable (divergenceReasons divergence) evidence
  if divergence.expectedPairTargetCount = 0 then measured 0 0 evidence (isSampled metrics)
  else
    measured divergence.divergentPairTargetCount divergence.observedPairTargetCount evidence
      (isSampled metrics)

def inputIds : List EfficiencyScoreInputId :=
  [.alwaysOnP95Budget, .effectiveP95Budget, .broadScopeTokenShare, .exactDuplicateTokenShare,
    .nearDuplicateTokenShare, .deadScopeTokenShare, .importAmplificationOverhead,
    .instructionDensityShortfall, .crossProfileDivergenceRate]

def normalizedInput (specification : EfficiencyScoreSpecification) :
    EfficiencyScoreInputId → Except EfficiencyScoreError NormalizedInput
  | .alwaysOnP95Budget => budgetInput metrics specification .always
  | .effectiveP95Budget => budgetInput metrics specification .effective
  | .broadScopeTokenShare => broadScopeInput metrics
  | .exactDuplicateTokenShare =>
    duplicateInput metrics "exact-duplicate" metrics.duplication.exactRedundantTokens
  | .nearDuplicateTokenShare =>
    duplicateInput metrics "near-duplicate" metrics.duplication.nearSimilarityCandidateTokens
  | .deadScopeTokenShare => deadScopeInput metrics
  | .importAmplificationOverhead => amplificationInput metrics
  | .instructionDensityShortfall => densityInput metrics
  | .crossProfileDivergenceRate => divergenceInput metrics

abbrev InputValues := List (EfficiencyScoreInputId × NormalizedInput)

def normalizedInputs (specification : EfficiencyScoreSpecification) :
    Except EfficiencyScoreError InputValues :=
  inputIds.mapM fun id => do return (id, ← normalizedInput metrics specification id)

/-! ## Components -/

def scoreInput (specification : EfficiencyScoreInputSpecification) (normalized : NormalizedInput) :
    Except EfficiencyScoreError EfficiencyScoreInputResult := do
  match normalized.inputBasisPoints with
  | none => return ⟨specification, normalized, none, .unavailable⟩
  | some inputBasisPoints => do
    let penalty ← evaluateEfficiencyPenaltyCurve specification.curve inputBasisPoints
    return ⟨specification, normalized, some penalty,
      if normalized.sampled then .sampled else .complete⟩

def inputOf (values : InputValues) (specification : EfficiencyScoreInputSpecification) :
    Except EfficiencyScoreError EfficiencyScoreInputResult :=
  match values.find? fun value => value.1 = specification.id with
  | none => fail .invalidMetrics (js "score input " ++ js specification.id.text ++ js " is unsupported")
  | some value => scoreInput specification value.2

def componentScore (values : InputValues) (specification : EfficiencyScoreComponentSpecification) :
    Except EfficiencyScoreError EfficiencyComponentScore := do
  let inputs ← specification.inputs.mapM (inputOf values)
  let reasons := sortedReasons (inputs.flatMap (·.normalized.reasonCodes))
  if ∃ input ∈ inputs, input.state = .unavailable then
    return {
      id := specification.id, inputs, reasonCodes := reasons, score := none
      scoreBasisPoints := none, weight := specification.weight
      state := if specification.weight = 0 then .ignoredUnavailable else .unavailable }
  let weightedPenalty ← weightedSum (·.penaltyBasisPoints)
    (·.specification.allocationBasisPoints) "input penalty" inputs
  let scoreBasisPoints := basisPoints - roundHalfUp weightedPenalty basisPoints
  return {
    id := specification.id, inputs, reasonCodes := reasons
    score := some (roundHalfUp scoreBasisPoints 100)
    scoreBasisPoints := some scoreBasisPoints, weight := specification.weight
    state := if ∃ input ∈ inputs, input.state = .sampled then .sampled else .complete }

/-! ## The score -/

def evidenceCount : Int → InputValues → Except EfficiencyScoreError Int
  | sum, [] => return sum
  | sum, value :: rest => do
    evidenceCount (← safeAdd sum value.2.evidence.length "score evidence count") rest

def caveats (components : List EfficiencyComponentScore) : List EfficiencyScoreCaveatCode :=
  sortedCodes EfficiencyScoreCaveatCode.text <|
    (if metrics.tokenizerMeasurement = .estimate then [.estimatedTokenizer] else []) ++
    (if isSampled metrics then [.samplingStratified] else []) ++
    if ∃ component ∈ components, component.state = .ignoredUnavailable then
      [.zeroWeightComponentUnavailable] else []

def totalScore (components : List EfficiencyComponentScore) :
    Except EfficiencyScoreError (Option Int) :=
  if ∃ component ∈ components, 0 < component.weight ∧ component.state = .unavailable then return none
  else do
    let weightedScores ← weightedSum (·.scoreBasisPoints) (·.weight) "component score"
      (components.filter (·.weight ≠ 0))
    return some (roundHalfUp weightedScores basisPoints)

def gradeOf (thresholds : EfficiencyGradeThresholds) :
    Option Int → Except EfficiencyScoreError (Option EfficiencyGrade)
  | none => return none
  | some total => some <$> gradeEfficiencyScore total thresholds

def stateOf (score : Option Int) (caveatCodes : List EfficiencyScoreCaveatCode) :
    EfficiencyScoreState :=
  if score = none then .unavailable else if caveatCodes = [] then .complete else .caveated

def confidenceOf : EfficiencyScoreState → EfficiencyScoreConfidence
  | .unavailable => .unavailable
  | .caveated => .limitedStaticEvidence
  | .complete => .completeStaticEvidence

def calculateContextEfficiencyScore (efficiencyConfiguration : JsValue) :
    Except EfficiencyScoreError ContextEfficiencyScore := do
  let specification ← createEfficiencyScoreSpecification efficiencyConfiguration
  let values ← normalizedInputs metrics specification
  failIf (maxScoreEvidence < (← evidenceCount 0 values)) .resourceLimit
    (js "score evidence exceeds its limit")
  let components ← specification.components.mapM (componentScore values)
  let score ← totalScore components
  let grade ← gradeOf specification.gradeThresholds score
  let caveatCodes := caveats metrics components
  let state := stateOf score caveatCodes
  return {
    caveatCodes, components, grade, score, specification, state
    confidence := confidenceOf state
    tokenizerMeasurement := metrics.tokenizerMeasurement
    uncertaintyCodes := sortedReasons ((components.filter (0 < ·.weight)).flatMap (·.reasonCodes)) }

end EfficiencyScore

end AgentContextLint
