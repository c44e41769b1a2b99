import AgentContextLint.Efficiency.ContextEfficiencyScore

/-!
# What the efficiency score is

A score is missing exactly where a component with a weight lacks evidence. Every component that has
evidence has a score in basis points, the complement of the rounded mean of its penalties, and the
score is the rounded mean of these (`scoreExact_of_calculate`). Scores stay within their bounds.
-/

namespace AgentContextLint.EfficiencyScore

open Utf16 Metered HalfUp List

/-! ## Evidence -/

def LacksEvidence (metrics : ContextEfficiencyMetrics) : EfficiencyScoreInputId → Prop
  | .alwaysOnP95Budget | .effectiveP95Budget => ∃ distribution ∈ metrics.distributions,
      distribution.samplingState = .partly ∨ distribution.state ≠ .complete
  | .broadScopeTokenShare => ∃ profile ∈ metrics.broadScope, profile.state = .partly
  | .exactDuplicateTokenShare | .nearDuplicateTokenShare | .instructionDensityShortfall =>
    metrics.density.state = .partly
  | .deadScopeTokenShare => ∃ profile ∈ metrics.deadScope, profile.state = .unknown
  | .importAmplificationOverhead => ∃ profile ∈ metrics.amplification, profile.state = .partly
  | .crossProfileDivergenceRate =>
    metrics.divergence.state = .partly ∨ 0 < metrics.divergence.indeterminatePairTargetCount

/-- An input is there with the evidence for it, and is the ratio of its two numbers. -/
structure Normalized (metrics : ContextEfficiencyMetrics) (id : EfficiencyScoreInputId)
    (normalized : NormalizedInput) : Prop where
  missing : normalized.inputBasisPoints = none ↔ LacksEvidence metrics id
  absent : normalized.inputBasisPoints = none → normalized.numerator = none
  ratio : ∀ inputBasisPoints, normalized.inputBasisPoints = some inputBasisPoints →
    ∃ numerator denominator, normalized.numerator = some numerator ∧
      normalized.denominator = some denominator ∧
      efficiencyRatioBasisPoints numerator denominator = .ok inputBasisPoints

variable {metrics : ContextEfficiencyMetrics} {specification : EfficiencyScoreSpecification}
  {id : EfficiencyScoreInputId} {normalized : NormalizedInput}
  {numerator denominator inputBasisPoints : Int}
  {evidence : List EfficiencyScoreEvidenceReference} {label : String}

theorem normalized_unavailable {reasons : List EfficiencyScoreUncertaintyCode} (lacks : LacksEvidence metrics id)
    (eq : (.ok (unavailable reasons evidence) : Except EfficiencyScoreError NormalizedInput) =
      .ok normalized) : Normalized metrics id normalized := by
  cases eq
  exact ⟨iff_of_true rfl lacks, fun _ => rfl, fun _ found => by cases found⟩

theorem normalized_measured {numerator denominator : Int} {sampled : Bool}
    (has : ¬ LacksEvidence metrics id)
    (eq : measured numerator denominator evidence sampled = .ok normalized) :
    Normalized metrics id normalized := by
  rcases bind_eq_ok.mp eq with ⟨inputBasisPoints, ratio, eq⟩
  cases eq
  refine ⟨iff_of_false (Option.some_ne_none _) has, fun none => (by cases none), fun _ found => ?_⟩
  cases found
  exact ⟨numerator, denominator, rfl, rfl, ratio⟩

theorem sortedCodes_eq_nil {κ : Type} [DecidableEq κ] {text : κ → Text} {codes : List κ} :
    sortedCodes text codes = [] ↔ codes = [] := by
  rw [sortedCodes, ← length_eq_zero_iff, Sorting.length_sortBy, length_eq_zero_iff, dedup_eq_nil]

theorem samplingReasons_ne_nil {distributions : List ProfileTargetDistribution} :
    samplingReasons distributions ≠ [] ↔ ∃ distribution ∈ distributions,
      distribution.samplingState = .partly ∨ distribution.state ≠ .complete := by
  rw [samplingReasons, sortedReasons, ne_eq, sortedCodes_eq_nil, flatMap_eq_nil_iff]
  constructor
  · intro some
    by_contra none
    apply some
    intro distribution member
    have complete := not_exists.mp none distribution
    rw [not_and, not_or, not_not] at complete
    have facts := complete member
    rw [if_neg facts.1, facts.2]
    rfl
  · intro ⟨distribution, member, reason⟩ none
    have nil := none distribution member
    rw [append_eq_nil_iff, append_eq_nil_iff] at nil
    rcases reason with sampling | state
    · rw [if_pos sampling] at nil
      exact absurd nil.1.1 (cons_ne_nil _ _)
    · cases found : distribution.state with
      | complete => exact state found
      | partly =>
        rw [if_pos found] at nil
        exact absurd nil.1.2 (cons_ne_nil _ _)
      | empty =>
        rw [if_pos found] at nil
        exact absurd nil.2 (cons_ne_nil _ _)

theorem normalized_budgetInput {kind : BudgetKind}
    (lacks : LacksEvidence metrics id ↔ ∃ distribution ∈ metrics.distributions,
      distribution.samplingState = .partly ∨ distribution.state ≠ .complete)
    (eq : budgetInput metrics specification kind = .ok normalized) :
    Normalized metrics id normalized := by
  rcases bind_eq_ok.mp eq with ⟨evidence, _, eq⟩
  split_ifs at eq with reasons
  · exact normalized_unavailable (lacks.mpr (samplingReasons_ne_nil.mp reasons)) eq
  · rcases bind_eq_ok.mp eq with ⟨tokens, _, eq⟩
    rcases bind_eq_ok.mp eq with ⟨greatest, _, eq⟩
    exact normalized_measured (fun lacking => reasons (samplingReasons_ne_nil.mpr (lacks.mp lacking))) eq

theorem normalized_duplicateInput {numerator : Int}
    (lacks : LacksEvidence metrics id ↔ metrics.density.state = .partly)
    (eq : duplicateInput metrics label numerator = .ok normalized) :
    Normalized metrics id normalized := by
  unfold duplicateInput at eq
  split_ifs at eq with missing
  · exact normalized_unavailable (lacks.mpr missing) eq
  · exact normalized_measured (fun lacking => missing (lacks.mp lacking)) eq

theorem divergenceReasons_ne_nil {divergence : CrossProfileDivergenceMetrics} :
    divergenceReasons divergence ≠ [] ↔
      divergence.state = .partly ∨ 0 < divergence.indeterminatePairTargetCount := by
  unfold divergenceReasons
  split_ifs with first second second
  · exact iff_of_true (cons_ne_nil _ _) (Or.inl first)
  · exact iff_of_true (cons_ne_nil _ _) (Or.inl first)
  · exact iff_of_true (cons_ne_nil _ _) (Or.inr second)
  · exact iff_of_false (fun some => some rfl) (not_or.mpr ⟨first, second⟩)

/-- What is said of all nine inputs. -/
theorem normalized_of_normalizedInput
    (eq : normalizedInput metrics specification id = .ok normalized) :
    Normalized metrics id normalized := by
  cases id with
  | alwaysOnP95Budget => exact normalized_budgetInput Iff.rfl eq
  | effectiveP95Budget => exact normalized_budgetInput Iff.rfl eq
  | exactDuplicateTokenShare => exact normalized_duplicateInput Iff.rfl eq
  | nearDuplicateTokenShare => exact normalized_duplicateInput Iff.rfl eq
  | broadScopeTokenShare =>
    unfold normalizedInput broadScopeInput at eq
    dsimp only at eq
    split_ifs at eq with missing
    · exact normalized_unavailable missing eq
    · rcases bind_eq_ok.mp eq with ⟨sums, _, eq⟩
      exact normalized_measured missing eq
  | deadScopeTokenShare =>
    unfold normalizedInput deadScopeInput at eq
    dsimp only at eq
    split_ifs at eq with missing
    · exact normalized_unavailable missing eq
    · rcases bind_eq_ok.mp eq with ⟨numerator, _, eq⟩
      rcases bind_eq_ok.mp eq with ⟨denominator, _, eq⟩
      exact normalized_measured missing eq
  | importAmplificationOverhead =>
    unfold normalizedInput amplificationInput at eq
    dsimp only at eq
    split_ifs at eq with missing none
    · exact normalized_unavailable missing eq
    · exact normalized_measured missing eq
    · rcases bind_eq_ok.mp eq with ⟨greatest, _, eq⟩
      exact normalized_measured missing eq
  | instructionDensityShortfall =>
    unfold normalizedInput densityInput at eq
    dsimp only at eq
    split at eq
    · next missing => exact normalized_unavailable missing eq
    · next empty => exact normalized_measured (fun missing => by cases empty.symm.trans missing) eq
    · next complete =>
        rcases bind_eq_ok.mp eq with ⟨observed, _, eq⟩
        exact normalized_measured (fun missing => by cases complete.symm.trans missing) eq
  | crossProfileDivergenceRate =>
    unfold normalizedInput divergenceInput at eq
    dsimp only at eq
    split_ifs at eq with reasons none
    · exact normalized_unavailable (divergenceReasons_ne_nil.mp reasons) eq
    · exact normalized_measured (fun lacking => reasons (divergenceReasons_ne_nil.mpr lacking)) eq
    · exact normalized_measured (fun lacking => reasons (divergenceReasons_ne_nil.mpr lacking)) eq

/-! ## Ratios -/

/-- A ratio before it is rounded and cut off; what is measured against nothing exceeds all. -/
def exactRatio (numerator denominator : Int) : WithTop ℚ :=
  if denominator = 0 then if numerator = 0 then 0 else ⊤
  else ((numerator / denominator : ℚ) : WithTop ℚ)

/-- A ratio in basis points, rounded and cut off. -/
def roundedRatio : WithTop ℚ → Int
  | ⊤ => maxCurveInputBasisPoints
  | (ratio : ℚ) => min maxCurveInputBasisPoints (round (ratio * 10000))

/-- Neither rounding nor the bound turns the order of ratios. -/
theorem roundedRatio_mono {first second : WithTop ℚ} (le : first ≤ second) :
    roundedRatio first ≤ roundedRatio second := by
  cases second with
  | top =>
    cases first with
    | top => exact le_rfl
    | coe ratio => exact min_le_left _ _
  | coe other =>
    cases first with
    | top => exact absurd le (not_le.mpr (WithTop.coe_lt_top other))
    | coe ratio =>
      apply min_le_min_left
      rw [round_eq, round_eq]
      have scaled : ratio * 10000 ≤ other * 10000 :=
        mul_le_mul_of_nonneg_right (WithTop.coe_le_coe.mp le) (by decide)
      exact Int.floor_mono (by linarith)

section

variable (eq : efficiencyRatioBasisPoints numerator denominator = .ok inputBasisPoints)

include eq

theorem ratio_eq_ok : 0 ≤ numerator ∧ 0 ≤ denominator ∧
      inputBasisPoints = roundedRatio (exactRatio numerator denominator) := by
  rcases check_bind_eq_ok.mp eq with ⟨first, eq⟩
  rcases check_bind_eq_ok.mp eq with ⟨second, eq⟩
  have natural := (boundedInteger_eq_ok.mp first).1
  have denominatorNatural := (boundedInteger_eq_ok.mp second).1
  refine ⟨natural, denominatorNatural, ?_⟩
  unfold exactRatio
  by_cases zero : denominator = 0
  · rw [if_pos zero] at eq ⊢
    cases eq
    split_ifs
    · have least : min maxCurveInputBasisPoints (round ((0 : ℚ) * 10000)) = 0 := by
        rw [zero_mul, round_zero]
        decide
      exact least.symm
    · rfl
  · rw [if_neg zero] at eq ⊢
    have positive : 0 < denominator := lt_of_le_of_ne denominatorNatural (Ne.symm zero)
    have rounded := roundHalfUp_eq_round (mul_nonneg natural (by decide : 0 ≤ basisPoints)) positive
    rw [Int.cast_mul, ← div_mul_eq_mul_div] at rounded
    change (pure _ : Except EfficiencyScoreError Int) = _ at eq
    cases eq
    have capped : ∀ result : Int, (if maxCurveInputBasisPoints < result then maxCurveInputBasisPoints
        else result) = min maxCurveInputBasisPoints result := by
      intro result
      split_ifs with greater
      · exact (min_eq_left greater.le).symm
      · exact (min_eq_right (not_lt.mp greater)).symm
    rw [capped, rounded]
    rfl

theorem ratio_bounds : 0 ≤ inputBasisPoints ∧ inputBasisPoints ≤ maxCurveInputBasisPoints := by
  rcases ratio_eq_ok eq with ⟨natural, denominatorNatural, rfl⟩
  have least : (0 : WithTop ℚ) ≤ exactRatio numerator denominator := by
    unfold exactRatio
    split_ifs
    · exact le_rfl
    · exact le_top
    · exact WithTop.coe_le_coe.mpr
        (div_nonneg (Int.cast_nonneg natural) (Int.cast_nonneg denominatorNatural))
  constructor
  · refine le_trans ?_ (roundedRatio_mono least)
    exact le_min (by decide) (by rw [zero_mul, round_zero])
  · exact roundedRatio_mono (le_top : exactRatio numerator denominator ≤ ⊤)

end

theorem ratio_mono {numerator denominator numerator' denominator' first second : Int}
    (le : exactRatio numerator denominator ≤ exactRatio numerator' denominator')
    (eq : efficiencyRatioBasisPoints numerator denominator = .ok first)
    (eq' : efficiencyRatioBasisPoints numerator' denominator' = .ok second) : first ≤ second := by
  rw [(ratio_eq_ok eq).2.2, (ratio_eq_ok eq').2.2]
  exact roundedRatio_mono le

/-! ## Sums -/

theorem requiredNumber_eq_ok {value : Option Int} {number : Int} :
    requiredNumber value label = .ok number ↔ value = some number := by
  unfold requiredNumber
  split
  · exact ⟨fun eq => by cases eq; rfl, fun eq => by cases eq; rfl⟩
  · exact ⟨fun eq => (by cases eq), fun eq => (by cases eq)⟩

theorem weightedSum_eq_ok {α : Type} {value : α → Option Int} {weight : α → Int}
    {as : List α} {sum : Int} (eq : weightedSum value weight label as = .ok sum) :
    (∀ a ∈ as, (value a).isSome = true) ∧
      sum = (as.map fun a => (value a).getD 0 * weight a).sum := by
  induction as generalizing sum with
  | nil =>
    cases eq
    exact ⟨forall_mem_nil _, rfl⟩
  | cons a rest ih =>
    rcases bind_eq_ok.mp eq with ⟨number, required, eq⟩
    rcases bind_eq_ok.mp eq with ⟨later, summed, eq⟩
    cases eq
    have present := requiredNumber_eq_ok.mp required
    rcases ih summed with ⟨others, rfl⟩
    refine ⟨forall_mem_cons.mpr ⟨?_, others⟩, ?_⟩
    · rw [present]
      rfl
    · rw [map_cons, sum_cons, present, Option.getD_some]

/-! ## Inputs with their penalties -/

variable {values : InputValues} {components : List EfficiencyComponentScore}
  {componentSpecifications : List EfficiencyScoreComponentSpecification}
  {inputSpecifications : List EfficiencyScoreInputSpecification} {configuration : JsValue}
  {inputSpecification : EfficiencyScoreInputSpecification}
  {inputs : List EfficiencyScoreInputResult}
  {score : ContextEfficiencyScore} {input : EfficiencyScoreInputResult}

/-- The values are those of the inputs that they are named by. -/
def ValuesOf (metrics : ContextEfficiencyMetrics) (specification : EfficiencyScoreSpecification)
    (values : InputValues) : Prop :=
  ∀ value ∈ values, normalizedInput metrics specification value.1 = .ok value.2

theorem valuesOf_normalizedInputs (eq : normalizedInputs metrics specification = .ok values) :
    ValuesOf metrics specification values := by
  intro value member
  rcases exists_of_mem_mapM eq member with ⟨id, _, made⟩
  rcases bind_eq_ok.mp made with ⟨normalized, ran, made⟩
  cases made
  exact ran

/-- An input that has been scored. -/
structure InputScored (metrics : ContextEfficiencyMetrics)
    (specification : EfficiencyScoreInputSpecification) (input : EfficiencyScoreInputResult) :
    Prop where
  specified : input.specification = specification
  normalized : Normalized metrics specification.id input.normalized
  unavailable : input.state = .unavailable ↔ input.normalized.inputBasisPoints = none
  missing : input.normalized.inputBasisPoints = none → input.penaltyBasisPoints = none
  penalty : ∀ inputBasisPoints, input.normalized.inputBasisPoints = some inputBasisPoints →
    ∃ penalty, input.penaltyBasisPoints = some penalty ∧
      evaluateEfficiencyPenaltyCurve specification.curve inputBasisPoints = .ok penalty

theorem inputScored_of_inputOf (own : ValuesOf metrics specification values)
    (eq : inputOf values inputSpecification = .ok input) :
    InputScored metrics inputSpecification input := by
  unfold inputOf at eq
  split at eq
  · cases eq
  · next value found =>
      have same : value.1 = inputSpecification.id := by simpa using find?_some found
      have ran := own value (mem_of_find?_eq_some found)
      rw [same] at ran
      have facts := normalized_of_normalizedInput ran
      unfold scoreInput at eq
      cases basis : value.2.inputBasisPoints with
      | none =>
        rw [basis] at eq
        cases eq
        refine ⟨rfl, facts, iff_of_true rfl basis, fun _ => rfl, ?_⟩
        intro _ found
        cases basis.symm.trans found
      | some inputBasisPoints =>
        rw [basis] at eq
        rcases bind_eq_ok.mp eq with ⟨penalty, evaluated, eq⟩
        cases eq
        refine ⟨rfl, facts, ?_, fun none => (by cases basis.symm.trans none), ?_⟩
        · dsimp only
          rw [basis]
          split_ifs
          · exact iff_of_false (fun same => by cases same) not_false
          · exact iff_of_false (fun same => by cases same) not_false
        · intro other found
          cases basis.symm.trans found
          exact ⟨penalty, rfl, evaluated⟩

theorem InputScored.bounds (scored : InputScored metrics inputSpecification input) :
    0 ≤ input.penaltyBasisPoints.getD 0 ∧ input.penaltyBasisPoints.getD 0 ≤ basisPoints := by
  cases basis : input.normalized.inputBasisPoints with
  | none =>
    rw [scored.missing basis]
    decide
  | some inputBasisPoints =>
    rcases scored.penalty inputBasisPoints basis with ⟨penalty, found, evaluated⟩
    rw [found]
    exact evaluate_bounds evaluated

/-! ## Components -/

/-- The mean of the penalties of a component by their allocations. -/
def penaltyMean (inputs : List EfficiencyScoreInputResult) : ℚ :=
  ((inputs.map fun input =>
    input.penaltyBasisPoints.getD 0 * input.specification.allocationBasisPoints).sum : ℤ) / 10000

/-- The score of a component in basis points is what its formula states. -/
structure ComponentExact (metrics : ContextEfficiencyMetrics)
    (specification : EfficiencyScoreComponentSpecification) (component : EfficiencyComponentScore) :
    Prop where
  id : component.id = specification.id
  weight : component.weight = specification.weight
  inputs : Forall₂ (InputScored metrics) specification.inputs component.inputs
  missing : component.scoreBasisPoints = none ↔
    ∃ input ∈ specification.inputs, LacksEvidence metrics input.id
  formula : ∀ scoreBasisPoints, component.scoreBasisPoints = some scoreBasisPoints →
    scoreBasisPoints = 10000 - round (penaltyMean component.inputs)
  bounds : ∀ scoreBasisPoints, component.scoreBasisPoints = some scoreBasisPoints →
    0 ≤ scoreBasisPoints ∧ scoreBasisPoints ≤ 10000
  score : component.score =
    component.scoreBasisPoints.map fun scoreBasisPoints => round ((scoreBasisPoints : ℚ) / 100)

/-- The inputs of a component share its basis points out among themselves. -/
def Allocated (specification : EfficiencyScoreComponentSpecification) : Prop :=
  (∀ input ∈ specification.inputs, 0 ≤ input.allocationBasisPoints) ∧
    (specification.inputs.map (·.allocationBasisPoints)).sum = basisPoints

section

variable (scored : Forall₂ (InputScored metrics) inputSpecifications inputs)

include scored

theorem exists_lacksEvidence_iff : (∃ input ∈ inputs, input.state = .unavailable) ↔
      ∃ input ∈ inputSpecifications, LacksEvidence metrics input.id := by
  induction scored with
  | nil => simp
  | cons first later ih =>
    rw [exists_mem_cons_iff, exists_mem_cons_iff, ih, first.unavailable, first.normalized.missing]

/-- The sum of the penalties, from nothing up to all basis points. -/
theorem penalties_bounds (natural : ∀ input ∈ inputSpecifications, 0 ≤ input.allocationBasisPoints) :
    0 ≤ (inputs.map fun input =>
        input.penaltyBasisPoints.getD 0 * input.specification.allocationBasisPoints).sum ∧
      (inputs.map fun input =>
        input.penaltyBasisPoints.getD 0 * input.specification.allocationBasisPoints).sum ≤
      basisPoints * (inputSpecifications.map (·.allocationBasisPoints)).sum := by
  induction scored with
  | nil => exact ⟨le_rfl, le_rfl⟩
  | cons first later ih =>
    rw [forall_mem_cons] at natural
    have rest := ih natural.2
    have bounds := first.bounds
    rw [map_cons, sum_cons, map_cons, sum_cons, mul_add, first.specified]
    constructor
    · exact add_nonneg (mul_nonneg bounds.1 natural.1) rest.1
    · exact add_le_add (mul_le_mul_of_nonneg_right bounds.2 natural.1) rest.2

end

theorem componentExact_of_componentScore
    {componentSpecification : EfficiencyScoreComponentSpecification}
    {component : EfficiencyComponentScore} (allocated : Allocated componentSpecification)
    (own : ValuesOf metrics specification values)
    (eq : componentScore values componentSpecification = .ok component) :
    ComponentExact metrics componentSpecification component ∧ (component.state = .unavailable ↔
        component.scoreBasisPoints = none ∧ component.weight ≠ 0) := by
  rcases bind_eq_ok.mp eq with ⟨inputs, mapped, eq⟩
  have scored : Forall₂ (InputScored metrics) componentSpecification.inputs inputs :=
    (mapM_eq_ok.mp mapped).imp fun _ _ made => inputScored_of_inputOf own made
  by_cases lacking : ∃ input ∈ inputs, input.state = .unavailable
  · dsimp only at eq
    rw [if_pos lacking] at eq
    cases eq
    constructor
    · exact ⟨rfl, rfl, scored, iff_of_true rfl ((exists_lacksEvidence_iff scored).mp lacking),
        fun _ found => (by cases found), fun _ found => (by cases found), rfl⟩
    · dsimp only
      split_ifs with weight
      · exact iff_of_false (fun same => by cases same) fun both => both.2 weight
      · exact iff_of_true rfl ⟨rfl, weight⟩
  · dsimp only at eq
    rw [if_neg lacking] at eq
    rcases bind_eq_ok.mp eq with ⟨weightedPenalty, summed, eq⟩
    have sum := (weightedSum_eq_ok summed).2
    have bounds := penalties_bounds scored allocated.1
    rw [← sum, allocated.2] at bounds
    have positive : 0 < basisPoints := by decide
    have least := roundHalfUp_nonneg bounds.1 positive
    have most := roundHalfUp_le bounds.1 positive bounds.2
    have rounded := roundHalfUp_eq_round bounds.1 positive
    have percent := roundHalfUp_eq_round (sub_nonneg.mpr most) (by decide : (0 : Int) < 100)
    cases eq
    constructor
    · refine ⟨rfl, rfl, scored, iff_of_false (Option.some_ne_none _) fun lacks =>
        lacking ((exists_lacksEvidence_iff scored).mpr lacks), ?_, ?_, ?_⟩
      · intro scoreBasisPoints found
        cases found
        rw [rounded, sum]
        rfl
      · intro scoreBasisPoints found
        cases found
        exact ⟨sub_nonneg.mpr most, sub_le_self _ least⟩
      · exact congrArg some percent
    · dsimp only
      split_ifs
      · exact iff_of_false (fun same => by cases same) fun both => by cases both.1
      · exact iff_of_false (fun same => by cases same) fun both => by cases both.1

/-! ## The total -/

/-- The mean of the scores of components by their weights, in hundredths. -/
def scoreMean (components : List EfficiencyComponentScore) : ℚ :=
  ((components.map fun component =>
    component.scoreBasisPoints.getD 0 * component.weight).sum : ℤ) / 10000

/-- A score is what its formula states. -/
structure ScoreExact (metrics : ContextEfficiencyMetrics) (configuration : JsValue)
    (score : ContextEfficiencyScore) : Prop where
  specified : createEfficiencyScoreSpecification configuration = .ok score.specification
  components : Forall₂ (ComponentExact metrics) score.specification.components score.components
  missing : score.score = none ↔ ∃ component ∈ score.specification.components,
    0 < component.weight ∧ ∃ input ∈ component.inputs, LacksEvidence metrics input.id
  formula : ∀ total, score.score = some total → total = round (scoreMean score.components)
  bounds : ∀ total, score.score = some total → 0 ≤ total ∧ total ≤ 100

/-- What is known of the components of a specification. -/
structure Specified (specification : EfficiencyScoreSpecification) : Prop where
  allocated : ∀ component ∈ specification.components, Allocated component
  curves : ∀ component ∈ specification.components, ∀ input ∈ component.inputs,
    ∃ points, normalizedCurve input.curve = .ok points
  weights : ∀ component ∈ specification.components, 0 ≤ component.weight
  sum : (specification.components.map (·.weight)).sum = 100
  thresholds : EfficiencyConfiguration.AcceptedThresholds specification.gradeThresholds

theorem accepted_of_normalizeConfiguration {input : JsValue} {normalized : EfficiencyConfiguration}
    (validated : normalizeConfiguration input = .ok normalized) :
    EfficiencyConfiguration.Accepted normalized := by
  unfold normalizeConfiguration at validated
  dsimp only at validated
  split at validated
  · next found =>
      cases validated
      exact EfficiencyConfiguration.accepted_of_validateConfiguration found
  · cases validated

theorem specified_of_create
    (created : createEfficiencyScoreSpecification configuration = .ok specification) :
    Specified specification := by
  rcases bind_eq_ok.mp created with ⟨normalized, validated, eq⟩
  cases eq
  have accepted := accepted_of_normalizeConfiguration validated
  have each : ∀ component ∈ EfficiencyComponentKey.all.map fun id =>
      (⟨id, inputsByComponent id, normalized.componentWeights id⟩ :
        EfficiencyScoreComponentSpecification),
      ∃ key, component = ⟨key, inputsByComponent key, normalized.componentWeights key⟩ := by
    intro component member
    rcases mem_map.mp member with ⟨key, _, rfl⟩
    exact ⟨key, rfl⟩
  constructor
  · intro component member
    rcases each component member with ⟨key, rfl⟩
    exact allocations key
  · intro component member
    rcases each component member with ⟨key, rfl⟩
    exact curves_accepted key
  · intro component member
    rcases each component member with ⟨key, rfl⟩
    exact accepted.weights key
  · rw [map_map]
    exact accepted.sum
  · exact accepted.thresholds

theorem scores_bounds
    (exact : Forall₂ (ComponentExact metrics) componentSpecifications components)
    (natural : ∀ component ∈ componentSpecifications, 0 ≤ component.weight) :
    0 ≤ (components.map fun component =>
        component.scoreBasisPoints.getD 0 * component.weight).sum ∧
      (components.map fun component =>
        component.scoreBasisPoints.getD 0 * component.weight).sum ≤
      basisPoints * (componentSpecifications.map (·.weight)).sum := by
  induction exact with
  | nil => exact ⟨le_rfl, le_rfl⟩
  | @cons _ component _ _ first later ih =>
    rw [forall_mem_cons] at natural
    have rest := ih natural.2
    have bounds : 0 ≤ component.scoreBasisPoints.getD 0 ∧
        component.scoreBasisPoints.getD 0 ≤ basisPoints := by
      cases found : component.scoreBasisPoints with
      | none => decide
      | some scoreBasisPoints => exact first.bounds scoreBasisPoints found
    rw [map_cons, sum_cons, map_cons, sum_cons, mul_add, first.weight]
    constructor
    · exact add_nonneg (mul_nonneg bounds.1 natural.1) rest.1
    · exact add_le_add (mul_le_mul_of_nonneg_right bounds.2 natural.1) rest.2

/-- Components without a weight do not count. -/
theorem sum_filter_weight (components : List EfficiencyComponentScore) :
    ((components.filter (·.weight ≠ 0)).map fun component =>
        component.scoreBasisPoints.getD 0 * component.weight).sum =
      (components.map fun component =>
        component.scoreBasisPoints.getD 0 * component.weight).sum := by
  induction components with
  | nil => rfl
  | cons component rest ih =>
    by_cases weight : component.weight = 0
    · rw [filter_cons_of_neg (by simpa using weight), ih, map_cons, sum_cons, weight,
        mul_zero, zero_add]
    · rw [filter_cons_of_pos (by simpa using weight), map_cons, sum_cons, ih, map_cons, sum_cons]

theorem totalScore_eq_ok {score : Option Int} (eq : totalScore components = .ok score) :
    (score = none ↔ ∃ component ∈ components,
      0 < component.weight ∧ component.state = .unavailable) ∧
    ∀ total, score = some total → total = roundHalfUp ((components.map fun component =>
      component.scoreBasisPoints.getD 0 * component.weight).sum) basisPoints := by
  unfold totalScore at eq
  split_ifs at eq with lacking
  · cases eq
    exact ⟨iff_of_true rfl lacking, fun _ found => by cases found⟩
  · rcases bind_eq_ok.mp eq with ⟨sum, summed, eq⟩
    cases eq
    refine ⟨iff_of_false (Option.some_ne_none _) lacking, fun total found => ?_⟩
    cases found
    rw [(weightedSum_eq_ok summed).2, sum_filter_weight]

/-- A component with a weight that lacks evidence. -/
theorem exists_unavailable_iff (exact : Forall₂ (fun specification component =>
      ComponentExact metrics specification component ∧ (component.state = .unavailable ↔
        component.scoreBasisPoints = none ∧ component.weight ≠ 0))
      componentSpecifications components) :
    (∃ component ∈ components, 0 < component.weight ∧ component.state = .unavailable) ↔
      ∃ component ∈ componentSpecifications, 0 < component.weight ∧
        ∃ input ∈ component.inputs, LacksEvidence metrics input.id := by
  induction exact with
  | nil => simp
  | cons first later ih =>
    rw [exists_mem_cons_iff, exists_mem_cons_iff, ih, first.2, first.1.missing, first.1.weight]
    apply or_congr _ Iff.rfl
    apply and_congr_right
    intro positive
    exact and_iff_left positive.ne'

/-- What a completed calculation has gone through. -/
theorem calculate_eq_ok (eq : calculateContextEfficiencyScore metrics configuration = .ok score) :
    createEfficiencyScoreSpecification configuration = .ok score.specification ∧
    (∃ values, normalizedInputs metrics score.specification = .ok values ∧
      score.specification.components.mapM (componentScore values) = .ok score.components) ∧
    totalScore score.components = .ok score.score := by
  rcases bind_eq_ok.mp eq with ⟨specification, created, eq⟩
  rcases bind_eq_ok.mp eq with ⟨values, normalized, eq⟩
  rcases bind_eq_ok.mp eq with ⟨count, _, eq⟩
  rcases check_bind_eq_ok.mp eq with ⟨_, eq⟩
  rcases bind_eq_ok.mp eq with ⟨components, scored, eq⟩
  rcases bind_eq_ok.mp eq with ⟨total, summed, eq⟩
  rcases bind_eq_ok.mp eq with ⟨grade, _, eq⟩
  cases eq
  exact ⟨created, ⟨values, normalized, scored⟩, summed⟩

theorem totalScore_round {score : Option Int} (specified : Specified specification)
    (exact : Forall₂ (ComponentExact metrics) specification.components components)
    (summed : totalScore components = .ok score) : ∀ total, score = some total →
      total = round (scoreMean components) ∧ 0 ≤ total ∧ total ≤ 100 := by
  have bounds := scores_bounds exact specified.weights
  rw [specified.sum] at bounds
  have positive : 0 < basisPoints := by decide
  intro total found
  have rounded := (totalScore_eq_ok summed).2 total found
  refine ⟨?_, ?_⟩
  · rw [rounded, roundHalfUp_eq_round bounds.1 positive]
    rfl
  · rw [rounded]
    exact ⟨roundHalfUp_nonneg bounds.1 positive,
      roundHalfUp_le bounds.1 positive (by rw [mul_comm]; exact bounds.2)⟩

theorem scoreExact_of_calculate
    (eq : calculateContextEfficiencyScore metrics configuration = .ok score) :
    ScoreExact metrics configuration score := by
  rcases calculate_eq_ok eq with ⟨created, ⟨values, normalized, scored⟩, summed⟩
  have specified := specified_of_create created
  have own := valuesOf_normalizedInputs normalized
  have exact := (forall₂_and_left _ _).mpr
    ⟨specified.allocated, mapM_eq_ok.mp scored⟩ |>.imp fun _ _ both =>
      componentExact_of_componentScore both.1 own both.2
  have components := exact.imp fun _ _ both => both.1
  have missing := (totalScore_eq_ok summed).1.trans (exists_unavailable_iff exact)
  have total := totalScore_round specified components summed
  exact ⟨created, components, missing, fun number found => (total number found).1,
    fun number found => (total number found).2⟩

end AgentContextLint.EfficiencyScore
