import AgentContextLint.Efficiency.EfficiencyConfiguration
import AgentContextLint.Lib.PiecewiseLinear

/-!
# The specification of the efficiency score

Model of `packages/efficiency/src/efficiency-score-specification.ts`: the components and their
inputs, the penalty curves, ratios and grades. Every curve is checked again when it is evaluated;
that it is a plain record with the texts of its arithmetic is left to its type.

A curve that passes the check maps every input to a penalty up to 10000, and a greater input to no
smaller penalty (`evaluate_bounds`, `evaluate_mono`). Neither do ratios lose their order when they
are rounded and cut off (`ratio_mono`).
-/

namespace AgentContextLint

open Utf16 Metered HalfUp PiecewiseLinear
open UnitPattern (inRange isDigit literal)

inductive EfficiencyScoreErrorCode
  | invalidConfiguration
  | invalidCurve
  | invalidInput
  | invalidMetrics
  | resourceLimit

structure EfficiencyScoreError where
  code : EfficiencyScoreErrorCode
  message : Text

inductive EfficiencyMetricNormalization
  | budgetUtilization
  | broadScopeTokenShare
  | crossProfileDivergenceRate
  | deadScopeTokenShare
  | densityShortfall
  | duplicateTokenShare
  | importAmplificationOverhead

inductive EfficiencyScoreInputId
  | alwaysOnP95Budget
  | effectiveP95Budget
  | broadScopeTokenShare
  | exactDuplicateTokenShare
  | nearDuplicateTokenShare
  | deadScopeTokenShare
  | importAmplificationOverhead
  | instructionDensityShortfall
  | crossProfileDivergenceRate
  deriving DecidableEq

def EfficiencyScoreInputId.text : EfficiencyScoreInputId → String
  | .alwaysOnP95Budget => "always-on-p95-budget"
  | .effectiveP95Budget => "effective-p95-budget"
  | .broadScopeTokenShare => "broad-scope-token-share"
  | .exactDuplicateTokenShare => "exact-duplicate-token-share"
  | .nearDuplicateTokenShare => "near-duplicate-token-share"
  | .deadScopeTokenShare => "dead-scope-token-share"
  | .importAmplificationOverhead => "import-amplification-overhead"
  | .instructionDensityShortfall => "instruction-density-shortfall"
  | .crossProfileDivergenceRate => "cross-profile-divergence-rate"

structure PenaltyCurve where
  id : Text
  points : List Point

structure EfficiencyScoreInputSpecification where
  allocationBasisPoints : Int
  curve : PenaltyCurve
  id : EfficiencyScoreInputId
  metricSource : String
  normalization : EfficiencyMetricNormalization

structure EfficiencyScoreComponentSpecification where
  id : EfficiencyComponentKey
  inputs : List EfficiencyScoreInputSpecification
  weight : Int

structure EfficiencyScoreSpecification where
  alwaysOnTokens : Int
  effectiveP95Tokens : Int
  components : List EfficiencyScoreComponentSpecification
  gradeThresholds : EfficiencyGradeThresholds

inductive EfficiencyGrade
  | a
  | b
  | c
  | d
  | f

namespace EfficiencyScore

variable {curve : PenaltyCurve} {code : EfficiencyScoreErrorCode} {input penalty : Int} {out : Unit}
  (key : EfficiencyComponentKey)

/-- `EFFICIENCY_SCORE_BASIS_POINTS` -/
def basisPoints : Int := 10000

/-- `EFFICIENCY_SCORE_MAX_CURVE_INPUT_BASIS_POINTS` -/
def maxCurveInputBasisPoints : Int := 1000000

/-- `EFFICIENCY_DENSITY_TARGET_BASIS_POINTS` -/
def densityTargetBasisPoints : Int := 2000000

/-- `EFFICIENCY_BROAD_SCOPE_CUTOFF_BASIS_POINTS` -/
def broadScopeCutoffBasisPoints : Int := 8000

def maxCurvePoints : Nat := 32

def maxSafeInteger : Int := 2 ^ 53 - 1

def failIf (condition : Prop) [Decidable condition] (code : EfficiencyScoreErrorCode)
    (message : Text) : Except EfficiencyScoreError Unit := refuseIf condition ⟨code, message⟩

def fail {α : Type} (code : EfficiencyScoreErrorCode) (message : Text) :
    Except EfficiencyScoreError α := .error ⟨code, message⟩

def boundedInteger (value maximum : Int) (label : Text) (code : EfficiencyScoreErrorCode) :
    Except EfficiencyScoreError Unit :=
  failIf (value < 0 ∨ maximum < value) code (label ++
    js " must be a non-negative safe integer no greater than " ++
    Netstring.decimalText maximum.toNat)

/-! ## Curves -/

def point (inputBasisPoints penaltyBasisPoints : Int) : Point := ⟨inputBasisPoints, penaltyBasisPoints⟩

def budgetCurve : PenaltyCurve := ⟨js "efficiency:budget-utilization:v1",
  [point 0 0, point 10000 0, point 12500 2500, point 15000 6000, point 20000 10000]⟩

def broadScopeCurve : PenaltyCurve := ⟨js "efficiency:broad-scope-token-share:v1",
  [point 0 0, point 2500 0, point 5000 2000, point 7500 6000, point 10000 10000]⟩

def exactDuplicateCurve : PenaltyCurve := ⟨js "efficiency:exact-duplicate-token-share:v1",
  [point 0 0, point 500 0, point 1500 5000, point 3000 10000]⟩

def nearDuplicateCurve : PenaltyCurve := ⟨js "efficiency:near-duplicate-token-share:v1",
  [point 0 0, point 1000 0, point 2500 4000, point 5000 10000]⟩

def deadScopeCurve : PenaltyCurve := ⟨js "efficiency:dead-scope-token-share:v1",
  [point 0 0, point 500 0, point 2000 4000, point 5000 10000]⟩

def amplificationCurve : PenaltyCurve := ⟨js "efficiency:import-amplification-overhead:v1",
  [point 0 0, point 500 0, point 1500 3000, point 3000 7000, point 5000 10000]⟩

def densityCurve : PenaltyCurve := ⟨js "efficiency:instruction-density-shortfall:v1",
  [point 0 0, point 2500 0, point 5000 5000, point 7500 8000, point 10000 10000]⟩

def divergenceCurve : PenaltyCurve := ⟨js "efficiency:cross-profile-divergence-rate:v1",
  [point 0 0, point 1000 1000, point 2500 3500, point 5000 7000, point 10000 10000]⟩

/-- `INPUTS_BY_COMPONENT` -/
def inputsByComponent : EfficiencyComponentKey → List EfficiencyScoreInputSpecification
  | .budgetFit => [
      ⟨5000, budgetCurve, .alwaysOnP95Budget, "G05.distributions.targets.alwaysOnTokens",
        .budgetUtilization⟩,
      ⟨5000, budgetCurve, .effectiveP95Budget, "G05.distributions.statistics.p95",
        .budgetUtilization⟩]
  | .scopePrecision => [
      ⟨10000, broadScopeCurve, .broadScopeTokenShare, "G05.broadScope.documents",
        .broadScopeTokenShare⟩]
  | .nonRedundancy => [
      ⟨7000, exactDuplicateCurve, .exactDuplicateTokenShare,
        "G05.duplication.exact.redundantTokens", .duplicateTokenShare⟩,
      ⟨3000, nearDuplicateCurve, .nearDuplicateTokenShare,
        "G05.duplication.near.similarityCandidateTokens", .duplicateTokenShare⟩]
  | .reachability => [
      ⟨6000, deadScopeCurve, .deadScopeTokenShare, "G05.deadScope.tokens", .deadScopeTokenShare⟩,
      ⟨4000, amplificationCurve, .importAmplificationOverhead,
        "G05.amplification.statistics.p95BasisPoints", .importAmplificationOverhead⟩]
  | .instructionDensity => [
      ⟨10000, densityCurve, .instructionDensityShortfall,
        "G05.density.actionablePerThousandBasisPoints", .densityShortfall⟩]
  | .crossAgentConsistency => [
      ⟨10000, divergenceCurve, .crossProfileDivergenceRate,
        "G05.divergence.divergentPairTargetCount/observedPairTargetCount",
        .crossProfileDivergenceRate⟩]

/-- `^efficiency:[a-z0-9]+(?:-[a-z0-9]+)*:v1$` -/
def curveIdPattern : Pattern CodeUnit :=
  let word : Pattern CodeUnit :=
    .plus (.unit fun u => inRange 0x61 0x7a u || isDigit u)
  .seq (literal "efficiency:") <| .seq word <|
    .seq (.star (.seq (literal "-") word)) (literal ":v1")

def pointLabel (index : Nat) (field : String) : Text :=
  js "curve.points[" ++ Netstring.decimalText index ++ js "]." ++ js field

def checkPoints (index : Nat) : List Point → Except EfficiencyScoreError Unit
  | [] => pure ()
  | next :: rest => do
    boundedInteger next.input maxCurveInputBasisPoints (pointLabel index "inputBasisPoints")
      .invalidCurve
    boundedInteger next.output basisPoints (pointLabel index "penaltyBasisPoints") .invalidCurve
    checkPoints (index + 1) rest

/-- The loop over neighbours. -/
def checkRising : Point → List Point → Except EfficiencyScoreError Unit
  | _, [] => pure ()
  | previous, current :: rest => do
    failIf (current.input ≤ previous.input ∨ current.output < previous.output) .invalidCurve
      (js "curve points must increase by input and not decrease by penalty")
    checkRising current rest

/-- The checked points, the first one apart. -/
def normalizedCurve (curve : PenaltyCurve) : Except EfficiencyScoreError (Point × List Point) := do
  failIf (¬ curveIdPattern.matchesAll curve.id) .invalidCurve (js "curve.id is invalid")
  failIf (curve.points.length < 2 ∨ maxCurvePoints < curve.points.length) .invalidCurve
    (js "curve.points must be a bounded dense array")
  checkPoints 0 curve.points
  match curve.points with
  | [] => fail .invalidCurve (js "curve endpoints are missing")
  | first :: rest => do
    failIf (first.input ≠ 0 ∨ first.output ≠ 0) .invalidCurve (js "curve must start at (0, 0)")
    checkRising first rest
    failIf (((first :: rest).getLast (List.cons_ne_nil first rest)).output ≠ basisPoints)
      .invalidCurve (js "curve must terminate at the maximum penalty")
    return (first, rest)

def evaluateEfficiencyPenaltyCurve (curve : PenaltyCurve) (inputBasisPoints : Int) :
    Except EfficiencyScoreError Int := do
  boundedInteger inputBasisPoints maxCurveInputBasisPoints (js "inputBasisPoints") .invalidInput
  let (first, rest) ← normalizedCurve curve
  match evaluate first rest inputBasisPoints with
  | some penaltyBasisPoints => return penaltyBasisPoints
  | none => fail .invalidCurve (js "curve segment is unavailable")

/-! ## Ratios and grades -/

def efficiencyRatioBasisPoints (numerator denominator : Int) : Except EfficiencyScoreError Int := do
  boundedInteger numerator maxSafeInteger (js "numerator") .invalidInput
  boundedInteger denominator maxSafeInteger (js "denominator") .invalidInput
  if denominator = 0 then return if numerator = 0 then 0 else maxCurveInputBasisPoints
  let result := roundHalfUp (numerator * basisPoints) denominator
  return if maxCurveInputBasisPoints < result then maxCurveInputBasisPoints else result

def normalizeConfiguration (inputValue : JsValue) :
    Except EfficiencyScoreError EfficiencyConfiguration :=
  let input := if inputValue.isUndefined then .object [] else inputValue
  match EfficiencyConfiguration.validateConfiguration input with
  | .ok configuration => .ok configuration
  | .error issue => fail .invalidConfiguration (issue.path ++ js ": " ++ issue.message)

def thresholdsValue (thresholds : EfficiencyGradeThresholds) : JsValue :=
  .object [(js "A", .number (.integer thresholds.a)), (js "B", .number (.integer thresholds.b)),
    (js "C", .number (.integer thresholds.c)), (js "D", .number (.integer thresholds.d))]

def gradeEfficiencyScore (score : Int) (thresholds : EfficiencyGradeThresholds) :
    Except EfficiencyScoreError EfficiencyGrade := do
  boundedInteger score 100 (js "score") .invalidInput
  let configuration ← normalizeConfiguration
    (.object [(js "gradeThresholds", thresholdsValue thresholds)])
  let thresholds := configuration.gradeThresholds
  if thresholds.a ≤ score then return .a
  if thresholds.b ≤ score then return .b
  if thresholds.c ≤ score then return .c
  if thresholds.d ≤ score then return .d
  return .f

def createEfficiencyScoreSpecification (inputValue : JsValue) :
    Except EfficiencyScoreError EfficiencyScoreSpecification := do
  let configuration ← normalizeConfiguration inputValue
  return {
    alwaysOnTokens := configuration.alwaysOnTokens
    effectiveP95Tokens := configuration.effectiveP95Tokens
    components := EfficiencyComponentKey.all.map fun id =>
      ⟨id, inputsByComponent id, configuration.componentWeights id⟩
    gradeThresholds := configuration.gradeThresholds }

/-! ## What curves give -/

theorem failIf_eq_ok {condition : Prop} [Decidable condition]
    {message : Text} : failIf condition code message = .ok out ↔ ¬ condition :=
  refuseIf_eq_ok

theorem boundedInteger_eq_ok {value maximum : Int} {label : Text} :
    boundedInteger value maximum label code = .ok out ↔ 0 ≤ value ∧ value ≤ maximum := by
  rw [boundedInteger, failIf_eq_ok, not_or, not_lt, not_lt]

theorem isChain_of_checkRising {previous : Point} {rest : List Point}
    (checked : checkRising previous rest = .ok ()) : (previous :: rest).IsChain Rises := by
  induction rest generalizing previous with
  | nil => exact List.isChain_singleton previous
  | cons current rest ih =>
    rcases check_bind_eq_ok.mp checked with ⟨rises, later⟩
    rw [failIf_eq_ok, not_or, not_le, not_lt] at rises
    exact List.isChain_cons_cons.mpr ⟨rises, ih later⟩

/-- A curve that passes the check. -/
structure CurveAccepted (first : Point) (rest : List Point) : Prop where
  start : first.output = 0
  rising : (first :: rest).IsChain Rises
  stop : ((first :: rest).getLast (List.cons_ne_nil first rest)).output = basisPoints

theorem curveAccepted_of_normalizedCurve {points : Point × List Point}
    (accepted : normalizedCurve curve = .ok points) : CurveAccepted points.1 points.2 := by
  rcases check_bind_eq_ok.mp accepted with ⟨_, accepted⟩
  rcases check_bind_eq_ok.mp accepted with ⟨_, accepted⟩
  rcases check_bind_eq_ok.mp accepted with ⟨_, accepted⟩
  cases shape : curve.points with
  | nil =>
    rw [shape] at accepted
    cases accepted
  | cons first rest =>
    rw [shape] at accepted
    rcases check_bind_eq_ok.mp accepted with ⟨start, accepted⟩
    rcases check_bind_eq_ok.mp accepted with ⟨rising, accepted⟩
    rcases check_bind_eq_ok.mp accepted with ⟨last, accepted⟩
    cases accepted
    rw [failIf_eq_ok, not_or, not_not, not_not] at start
    rw [failIf_eq_ok, not_not] at last
    exact ⟨start.2, isChain_of_checkRising rising, last⟩

theorem evaluate_eq_ok (evaluated : evaluateEfficiencyPenaltyCurve curve input = .ok penalty) :
    ∃ points, normalizedCurve curve = .ok points ∧ evaluate points.1 points.2 input = some penalty := by
  rcases check_bind_eq_ok.mp evaluated with ⟨_, evaluated⟩
  rcases bind_eq_ok.mp evaluated with ⟨points, normalized, evaluated⟩
  refine ⟨points, normalized, ?_⟩
  dsimp only at evaluated
  split at evaluated
  · next found =>
      cases evaluated
      exact found
  · cases evaluated

theorem evaluate_bounds (evaluated : evaluateEfficiencyPenaltyCurve curve input = .ok penalty) :
    0 ≤ penalty ∧ penalty ≤ basisPoints := by
  rcases evaluate_eq_ok evaluated with ⟨points, normalized, found⟩
  have accepted := curveAccepted_of_normalizedCurve normalized
  have bounds := PiecewiseLinear.evaluate_bounds accepted.rising found
  rwa [accepted.start, accepted.stop] at bounds

/-- A greater input has no smaller penalty. -/
theorem evaluate_mono {input other penalty penalty' : Int}
    (le : input ≤ other) (evaluated : evaluateEfficiencyPenaltyCurve curve input = .ok penalty)
    (evaluated' : evaluateEfficiencyPenaltyCurve curve other = .ok penalty') : penalty ≤ penalty' := by
  rcases evaluate_eq_ok evaluated with ⟨points, normalized, found⟩
  rcases evaluate_eq_ok evaluated' with ⟨points', normalized', found'⟩
  cases normalized.symm.trans normalized'
  exact PiecewiseLinear.evaluate_mono (curveAccepted_of_normalizedCurve normalized).rising le found found'

/-- All curves of the specification pass the check. -/
theorem curves_accepted :
    ∀ input ∈ inputsByComponent key, ∃ points, normalizedCurve input.curve = .ok points := by
  have evaluates : ∀ input ∈ inputsByComponent key,
      (normalizedCurve input.curve).toOption.isSome = true := by
    cases key <;> decide +kernel
  intro input member
  have isSome := evaluates input member
  cases normalized : normalizedCurve input.curve with
  | ok points => exact ⟨points, rfl⟩
  | error error =>
    rw [normalized] at isSome
    cases isSome

theorem evaluate_total {key : EfficiencyComponentKey} {specification : EfficiencyScoreInputSpecification}
    (member : specification ∈ inputsByComponent key) {input : Int}
    (inside : 0 ≤ input ∧ input ≤ maxCurveInputBasisPoints) :
    ∃ penalty, evaluateEfficiencyPenaltyCurve specification.curve input = .ok penalty := by
  rcases curves_accepted key specification member with ⟨points, normalized⟩
  rcases evaluate_isSome points.1 points.2 input with ⟨penalty, found⟩
  refine ⟨penalty, check_bind_eq_ok.mpr ⟨boundedInteger_eq_ok.mpr inside, ?_⟩⟩
  refine bind_eq_ok.mpr ⟨points, normalized, ?_⟩
  dsimp only
  rw [found]
  rfl

theorem allocations : (∀ input ∈ inputsByComponent key, 0 ≤ input.allocationBasisPoints) ∧
      ((inputsByComponent key).map (·.allocationBasisPoints)).sum = basisPoints := by
  cases key <;> decide

end EfficiencyScore

end AgentContextLint
