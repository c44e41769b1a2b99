import AgentContextLint.Efficiency.ScoreArithmetic

/-!
# Scores of issued metrics

Metrics that `analyzeContextEfficiencyMetrics` issues have the numbers that their states promise.
Over such metrics nothing but a limit stops the calculation of a score (`calculate_total`).
-/

namespace AgentContextLint.EfficiencyScore

open Utf16 Metered HalfUp Checked List
open EfficiencyConfiguration (optionalInteger safeInteger? validateConfiguration validateEfficiency validateGrades validateWeights weightOf)
open JsValue (get)

def isCount (number : Int) : Prop := 0 ≤ number ∧ number ≤ maxSafeInteger

/-- What is known of issued metrics. -/
structure Issued (metrics : ContextEfficiencyMetrics) : Prop where
  profiles : metrics.distributions ≠ []
  targets : ∀ distribution ∈ metrics.distributions, ∀ target ∈ distribution.targets,
    isCount target.alwaysOnTokens
  distributions : ∀ distribution ∈ metrics.distributions, distribution.state = .complete →
    (∃ target ∈ distribution.targets, target.includedInStatistics = true) ∧
    ∃ p95, distribution.p95 = some p95 ∧ isCount p95
  broadScope : ∀ profile ∈ metrics.broadScope, profile.state = .complete →
    ∀ document ∈ profile.documents,
      isCount document.effectiveTokens ∧ document.coverageBasisPoints.isSome = true
  deadScope : ∀ profile ∈ metrics.deadScope, profile.state = .measured →
    ∃ tokens, profile.tokens = some tokens ∧ isCount tokens
  amplification : ∀ profile ∈ metrics.amplification, ∀ p95 ∈ profile.p95BasisPoints, isCount p95
  rawTokens : isCount metrics.density.rawTokens
  density : metrics.density.state = .complete →
    ∃ rate, metrics.density.actionablePerThousandBasisPoints = some rate ∧ isCount rate
  exactTokens : isCount metrics.duplication.exactRedundantTokens
  nearTokens : isCount metrics.duplication.nearSimilarityCandidateTokens
  divergent : isCount metrics.divergence.divergentPairTargetCount
  observed : isCount metrics.divergence.observedPairTargetCount

/-- The number of references of an input. -/
def evidenceLength (metrics : ContextEfficiencyMetrics) : EfficiencyScoreInputId → Nat
  | .alwaysOnP95Budget | .effectiveP95Budget => metrics.distributions.length
  | .broadScopeTokenShare => (metrics.broadScope.flatMap (·.documents)).length
  | .exactDuplicateTokenShare | .nearDuplicateTokenShare | .crossProfileDivergenceRate => 1
  | .deadScopeTokenShare => metrics.deadScope.length
  | .importAmplificationOverhead => metrics.amplification.length
  | .instructionDensityShortfall => metrics.density.documents.length

/-- No sum leaves the safe range, and there is no more evidence than a score may have. -/
structure WithinLimits (metrics : ContextEfficiencyMetrics) : Prop where
  broadScope : ((metrics.broadScope.flatMap (·.documents)).map (·.effectiveTokens)).sum ≤
    maxSafeInteger
  deadScope : (metrics.deadScope.map fun profile => profile.tokens.getD 0).sum ≤ maxSafeInteger
  deadScopeDenominator : metrics.density.rawTokens * metrics.deadScope.length ≤ maxSafeInteger
  evidence : ((inputIds.map (evidenceLength metrics)).sum : Int) ≤ maxScoreEvidence

/-! ## Steps that go through -/

variable {metrics : ContextEfficiencyMetrics} {specification : EfficiencyScoreSpecification}
  {numerator denominator : Int} {id : EfficiencyScoreInputId}

theorem ratio_total (numeratorCount : isCount numerator) (denominatorCount : isCount denominator) :
    ∃ inputBasisPoints, efficiencyRatioBasisPoints numerator denominator = .ok inputBasisPoints := by
  have first : ∀ {label}, boundedInteger numerator maxSafeInteger label .invalidInput = .ok () :=
    boundedInteger_eq_ok.mpr numeratorCount
  have second : ∀ {label}, boundedInteger denominator maxSafeInteger label .invalidInput = .ok () :=
    boundedInteger_eq_ok.mpr denominatorCount
  unfold efficiencyRatioBasisPoints
  rw [first, second, ok_bind, ok_bind]
  split_ifs
  · exact ⟨_, rfl⟩
  · exact ⟨_, rfl⟩
  · exact ⟨_, rfl⟩

theorem measured_total (numeratorCount : isCount numerator) (denominatorCount : isCount denominator)
    (evidence : List EfficiencyScoreEvidenceReference) (sampled : Bool) : ∃ normalized,
      measured numerator denominator evidence sampled = .ok normalized ∧
        normalized.evidence = evidence := by
  rcases ratio_total numeratorCount denominatorCount with ⟨inputBasisPoints, eq⟩
  refine ⟨_, bind_eq_ok.mpr ⟨inputBasisPoints, eq, rfl⟩, rfl⟩

theorem safe_total {result : Int} (label : String) (count : isCount result) :
    safe result label = .ok result := by
  have natural := count.1
  have most := count.2
  refine check_bind_eq_ok.mpr ⟨failIf_eq_ok.mpr (not_not.mpr ⟨?_, most⟩), rfl⟩
  exact le_trans (by decide) natural

theorem maximum_total {values : List Int} (some : values ≠ []) (counts : ∀ value ∈ values, isCount value) :
    ∃ greatest, maximum values = .ok greatest ∧ isCount greatest := by
  unfold maximum
  cases found : values.max? with
  | none => exact absurd (max?_eq_none_iff.mp found) some
  | some greatest => exact ⟨greatest, rfl, counts greatest (max?_mem found)⟩

theorem nearestRank95_total {values : List Int} (counts : ∀ value ∈ values, isCount value) :
    ∃ found, nearestRank95 values = .ok found ∧
      (values ≠ [] → ∃ value, found = some value ∧ isCount value) := by
  unfold nearestRank95
  split_ifs with none
  · exact ⟨_, rfl, fun some => absurd none some⟩
  · have positive := length_pos_of_ne_nil none
    have index : ((Sorting.sortBy compare values).length * 95 + 99) / 100 - 1 <
        (Sorting.sortBy compare values).length := by
      rw [Sorting.length_sortBy]
      omega
    dsimp only
    rw [getElem?_eq_getElem index]
    refine ⟨_, rfl, fun _ => ⟨_, rfl, counts _ ?_⟩⟩
    exact (Sorting.mem_sortBy _).mp (getElem_mem index)

/-! ## Inputs that go through -/

theorem budgetReference_total (kind : BudgetKind) {distribution : ProfileTargetDistribution}
    (issued : distribution.state = .complete →
      (∃ target ∈ distribution.targets, target.includedInStatistics = true) ∧
      ∃ p95, distribution.p95 = some p95 ∧ isCount p95)
    (counts : ∀ target ∈ distribution.targets, isCount target.alwaysOnTokens) :
    ∃ reference, budgetReference kind distribution = .ok reference ∧
      (distribution.state = .complete → ∃ tokens, reference.tokens = some tokens ∧ isCount tokens) := by
  cases kind with
  | always =>
    have each : ∀ value ∈ (distribution.targets.filter (·.includedInStatistics)).map
        (·.alwaysOnTokens), isCount value := by
      intro value member
      rcases mem_map.mp member with ⟨target, inTargets, rfl⟩
      exact counts target (mem_filter.mp inTargets).1
    rcases nearestRank95_total each with ⟨found, ran, present⟩
    refine ⟨_, bind_eq_ok.mpr ⟨found, ran, rfl⟩, fun complete => ?_⟩
    apply present
    rcases (issued complete).1 with ⟨target, inTargets, included⟩
    exact ne_nil_of_mem (mem_map_of_mem (mem_filter.mpr ⟨inTargets, included⟩))
  | effective => exact ⟨_, rfl, fun complete => (issued complete).2⟩

variable {label : String} {number : Int}

theorem requiredNumber_total {value : Option Int} (present : value = some number) :
    requiredNumber value label = .ok number :=
  requiredNumber_eq_ok.mpr present

theorem safeAdd_total {left right : Int} (label : String) (count : isCount (left + right)) :
    safeAdd left right label = .ok (left + right) := safe_total label count

variable {start : Int}

theorem deadScopeTokens_total {profiles : List ProfileDeadScopeMetric} (natural : 0 ≤ start)
    (measured : ∀ profile ∈ profiles, ∃ tokens, profile.tokens = some tokens ∧ isCount tokens)
    (limit : start + (profiles.map fun profile => profile.tokens.getD 0).sum ≤ maxSafeInteger) :
    ∃ sum, deadScopeTokens start profiles = .ok sum ∧ isCount sum := by
  induction profiles generalizing start with
  | nil => exact ⟨start, rfl, natural, by simpa using limit⟩
  | cons profile rest ih =>
    rcases forall_mem_cons.mp measured with ⟨⟨tokens, present, count⟩, later⟩
    rw [map_cons, sum_cons, present, Option.getD_some, ← add_assoc] at limit
    have others : 0 ≤ (rest.map fun profile => profile.tokens.getD 0).sum := by
      apply sum_nonneg
      intro value member
      rcases mem_map.mp member with ⟨other, inRest, rfl⟩
      rcases later other inRest with ⟨number, found, numberCount⟩
      rw [found]
      exact numberCount.1
    have within : isCount (start + tokens) :=
      ⟨add_nonneg natural count.1, (le_add_of_nonneg_right others).trans limit⟩
    rcases ih within.1 later limit with ⟨sum, ran, sumCount⟩
    refine ⟨sum, bind_eq_ok.mpr ⟨tokens, requiredNumber_total present, ?_⟩, sumCount⟩
    exact bind_eq_ok.mpr ⟨start + tokens, safeAdd_total _ within, ran⟩

theorem broadScopeSums_total {documents : List BroadScopeDocumentMetric} (natural : 0 ≤ numerator)
    (le : numerator ≤ denominator) (complete : ∀ document ∈ documents,
      isCount document.effectiveTokens ∧ document.coverageBasisPoints.isSome = true)
    (limit : denominator + (documents.map (·.effectiveTokens)).sum ≤ maxSafeInteger) :
    ∃ sums, broadScopeSums numerator denominator documents = .ok sums ∧ isCount sums.1 ∧
      isCount sums.2 := by
  induction documents generalizing numerator denominator with
  | nil =>
    have most : denominator ≤ maxSafeInteger := by simpa using limit
    exact ⟨(numerator, denominator), rfl, ⟨natural, le.trans most⟩, natural.trans le, most⟩
  | cons document rest ih =>
    rcases forall_mem_cons.mp complete with ⟨⟨count, covered⟩, later⟩
    rcases Option.isSome_iff_exists.mp covered with ⟨coverage, present⟩
    rw [map_cons, sum_cons, ← add_assoc] at limit
    have others : 0 ≤ (rest.map (·.effectiveTokens)).sum := by
      apply sum_nonneg
      intro value member
      rcases mem_map.mp member with ⟨other, inRest, rfl⟩
      exact (later other inRest).1.1
    have within : isCount (denominator + document.effectiveTokens) :=
      ⟨add_nonneg (natural.trans le) count.1, (le_add_of_nonneg_right others).trans limit⟩
    have more : isCount (numerator + document.effectiveTokens) :=
      ⟨add_nonneg natural count.1, (Int.add_le_add_right le _).trans within.2⟩
    have next : ∃ numerator', addBroad numerator document.effectiveTokens coverage = .ok numerator' ∧
        0 ≤ numerator' ∧ numerator' ≤ denominator + document.effectiveTokens := by
      unfold addBroad
      split_ifs
      · exact ⟨_, safeAdd_total _ more, more.1, Int.add_le_add_right le _⟩
      · exact ⟨numerator, rfl, natural, le_add_of_le_of_nonneg le count.1⟩
    rcases next with ⟨numerator', added, natural', le'⟩
    rcases ih natural' le' later limit with ⟨sums, ran, sumsCount⟩
    refine ⟨sums, bind_eq_ok.mpr ⟨_, safeAdd_total _ within, ?_⟩, sumsCount⟩
    refine bind_eq_ok.mpr ⟨coverage, requiredNumber_total present, ?_⟩
    exact bind_eq_ok.mpr ⟨numerator', added, ran⟩

def Returns (metrics : ContextEfficiencyMetrics) (id : EfficiencyScoreInputId)
    (program : Except EfficiencyScoreError NormalizedInput) : Prop :=
  ∃ normalized, program = .ok normalized ∧
    normalized.evidence.length = evidenceLength metrics id

theorem returns_measured (numeratorCount : isCount numerator)
    (denominatorCount : isCount denominator) {evidence : List EfficiencyScoreEvidenceReference}
    (sampled : Bool) (long : evidence.length = evidenceLength metrics id) :
    Returns metrics id (measured numerator denominator evidence sampled) := by
  rcases measured_total numeratorCount denominatorCount evidence sampled with ⟨normalized, ran, same⟩
  exact ⟨normalized, ran, same ▸ long⟩

theorem isCount_zero : isCount 0 := ⟨le_rfl, by decide⟩

theorem isCount_budget {budget : Int} (natural : 0 ≤ budget) (most : budget ≤ 10000000) :
    isCount budget := ⟨natural, most.trans (by decide)⟩

theorem budgetInput_total (issued : Issued metrics) (kind : BudgetKind) (long : evidenceLength metrics id = metrics.distributions.length)
    (alwaysOn : isCount specification.alwaysOnTokens)
    (effective : isCount specification.effectiveP95Tokens) :
    Returns metrics id (budgetInput metrics specification kind) := by
  have each : ∀ distribution ∈ metrics.distributions, ∃ reference,
      budgetReference kind distribution = .ok reference ∧
      (samplingReasons metrics.distributions = [] →
        ∃ tokens, reference.tokens = some tokens ∧ isCount tokens) := by
    intro distribution member
    rcases budgetReference_total kind (issued.distributions distribution member)
      (issued.targets distribution member) with ⟨reference, ran, present⟩
    refine ⟨reference, ran, fun none => present ?_⟩
    by_contra other
    exact samplingReasons_ne_nil.mpr ⟨distribution, member, Or.inr other⟩ none
  rcases exists_mapM each with ⟨evidence, mapped, length, present⟩
  have evidenceLong : evidence.length = evidenceLength metrics id := length.trans long.symm
  by_cases reasons : samplingReasons metrics.distributions = []
  · have tokens : ∀ entry ∈ evidence, ∃ number,
        requiredNumber entry.tokens "budget observation" = .ok number ∧ isCount number := by
      intro entry member
      rcases present entry member reasons with ⟨number, found, count⟩
      exact ⟨number, requiredNumber_total found, count⟩
    rcases exists_mapM tokens with ⟨numbers, required, numbersLength, numberCounts⟩
    have some : numbers ≠ [] := by
      apply ne_nil_of_length_pos
      rw [numbersLength, length]
      exact length_pos_of_ne_nil issued.profiles
    rcases maximum_total some numberCounts with ⟨greatest, ran, greatestCount⟩
    have budget : isCount (budgetOf specification kind) := by
      cases kind with
      | always => exact alwaysOn
      | effective => exact effective
    rcases returns_measured greatestCount budget (isSampled metrics) evidenceLong with
      ⟨normalized, measured, normalizedLong⟩
    refine ⟨normalized, bind_eq_ok.mpr ⟨evidence, mapped, ?_⟩, normalizedLong⟩
    rw [if_neg (not_not.mpr reasons)]
    exact bind_eq_ok.mpr ⟨numbers, required, bind_eq_ok.mpr ⟨greatest, ran, measured⟩⟩
  · refine ⟨unavailable (samplingReasons metrics.distributions) evidence,
      bind_eq_ok.mpr ⟨evidence, mapped, ?_⟩, evidenceLong⟩
    rw [if_pos reasons]
    rfl

theorem duplicateInput_total (issued : Issued metrics) (label : String) {numerator : Int}
    (count : isCount numerator) (long : evidenceLength metrics id = 1) :
    Returns metrics id (duplicateInput metrics label numerator) := by
  unfold duplicateInput
  split_ifs
  · exact ⟨_, rfl, long.symm⟩
  · exact returns_measured count issued.rawTokens false long.symm

theorem isCount_difference {target : Int} (natural : 0 ≤ target) (most : target ≤ maxSafeInteger)
    (count : 0 ≤ number) : isCount (max 0 (target - number)) :=
  ⟨le_max_left _ _, max_le (natural.trans most) ((sub_le_self _ count).trans most)⟩

theorem normalizedInput_total (issued : Issued metrics) (within : WithinLimits metrics)
    (alwaysOn : isCount specification.alwaysOnTokens)
    (effective : isCount specification.effectiveP95Tokens) (id : EfficiencyScoreInputId) :
    Returns metrics id (normalizedInput metrics specification id) := by
  cases id with
  | alwaysOnP95Budget => exact budgetInput_total issued .always rfl alwaysOn effective
  | effectiveP95Budget => exact budgetInput_total issued .effective rfl alwaysOn effective
  | exactDuplicateTokenShare => exact duplicateInput_total issued _ issued.exactTokens rfl
  | nearDuplicateTokenShare => exact duplicateInput_total issued _ issued.nearTokens rfl
  | broadScopeTokenShare =>
    have long : (metrics.broadScope.flatMap fun profile => profile.documents.map
        (documentRef "broad-scope-document" profile.profileKey)).length =
        evidenceLength metrics .broadScopeTokenShare := by
      simp only [evidenceLength, length_flatMap, length_map]
    unfold normalizedInput broadScopeInput
    dsimp only
    split_ifs with missing
    · exact ⟨_, rfl, long⟩
    · have complete : ∀ document ∈ metrics.broadScope.flatMap (·.documents),
          isCount document.effectiveTokens ∧ document.coverageBasisPoints.isSome = true := by
        intro document member
        rcases mem_flatMap.mp member with ⟨profile, inProfiles, inDocuments⟩
        apply issued.broadScope profile inProfiles _ document inDocuments
        cases state : profile.state with
        | complete => rfl
        | partly => exact absurd ⟨profile, inProfiles, state⟩ missing
      rcases broadScopeSums_total le_rfl le_rfl complete (by simpa using within.broadScope) with
        ⟨sums, ran, numeratorCount, denominatorCount⟩
      rcases returns_measured numeratorCount denominatorCount (isSampled metrics) long with
        ⟨normalized, measured, normalizedLong⟩
      exact ⟨normalized, bind_eq_ok.mpr ⟨sums, ran, measured⟩, normalizedLong⟩
  | deadScopeTokenShare =>
    have long : (metrics.deadScope.map fun profile =>
        profileRef "dead-scope-profile" profile.profileKey (deadScopeState profile.state)
          profile.tokens none none).length = evidenceLength metrics .deadScopeTokenShare :=
      length_map _
    unfold normalizedInput deadScopeInput
    dsimp only
    split_ifs with missing
    · exact ⟨_, rfl, long⟩
    · have measured : ∀ profile ∈ metrics.deadScope,
          ∃ tokens, profile.tokens = some tokens ∧ isCount tokens := by
        intro profile member
        apply issued.deadScope profile member
        cases state : profile.state with
        | measured => rfl
        | unknown => exact absurd ⟨profile, member, state⟩ missing
      rcases deadScopeTokens_total le_rfl measured (by simpa using within.deadScope) with
        ⟨numerator, ran, numeratorCount⟩
      have denominatorCount : isCount (metrics.density.rawTokens * metrics.deadScope.length) :=
        ⟨mul_nonneg issued.rawTokens.1 (Int.natCast_nonneg _), within.deadScopeDenominator⟩
      rcases returns_measured numeratorCount denominatorCount false long with
        ⟨normalized, measured, normalizedLong⟩
      exact ⟨normalized, bind_eq_ok.mpr ⟨numerator, ran,
        bind_eq_ok.mpr ⟨_, safe_total _ denominatorCount, measured⟩⟩, normalizedLong⟩
  | importAmplificationOverhead =>
    have long : (metrics.amplification.map fun profile =>
        profileRef "amplification-p95" profile.profileKey (distributionState profile.state) none
          profile.p95BasisPoints (some .basisPoints)).length =
        evidenceLength metrics .importAmplificationOverhead := length_map _
    unfold normalizedInput amplificationInput
    dsimp only
    split_ifs with missing none
    · exact ⟨_, rfl, long⟩
    · exact returns_measured isCount_zero isCount_zero _ long
    · have each : ∀ value ∈ metrics.amplification.filterMap (·.p95BasisPoints), isCount value := by
        intro value member
        rcases mem_filterMap.mp member with ⟨profile, inProfiles, found⟩
        exact issued.amplification profile inProfiles value found
      rcases maximum_total none each with ⟨greatest, ran, greatestCount⟩
      have overhead : isCount (max 0 (greatest - basisPoints)) :=
        isCount_difference greatestCount.1 greatestCount.2 (by decide)
      rcases returns_measured overhead greatestCount (isSampled metrics) long with
        ⟨normalized, measured, normalizedLong⟩
      exact ⟨normalized, bind_eq_ok.mpr ⟨greatest, ran, measured⟩, normalizedLong⟩
  | instructionDensityShortfall =>
    have long : (metrics.density.documents.map densityReference).length =
        evidenceLength metrics .instructionDensityShortfall := length_map _
    unfold normalizedInput densityInput
    dsimp only
    cases state : metrics.density.state with
    | partly => exact ⟨_, rfl, long⟩
    | empty => exact returns_measured isCount_zero isCount_zero false long
    | complete =>
      rcases issued.density state with ⟨observed, present, count⟩
      have target : isCount densityTargetBasisPoints := ⟨by decide, by decide⟩
      have shortfall : isCount (max 0 (densityTargetBasisPoints - observed)) :=
        isCount_difference target.1 target.2 count.1
      rcases returns_measured shortfall target false long with
        ⟨normalized, measured, normalizedLong⟩
      exact ⟨normalized, bind_eq_ok.mpr ⟨observed, requiredNumber_total present, measured⟩,
        normalizedLong⟩
  | crossProfileDivergenceRate =>
    unfold normalizedInput divergenceInput
    dsimp only
    split_ifs
    · exact ⟨_, rfl, rfl⟩
    · exact returns_measured isCount_zero isCount_zero _ rfl
    · exact returns_measured issued.divergent issued.observed _ rfl

/-! ## The calculation -/

theorem normalizedInputs_total (issued : Issued metrics) (within : WithinLimits metrics)
    (alwaysOn : isCount specification.alwaysOnTokens)
    (effective : isCount specification.effectiveP95Tokens) :
    ∃ values, normalizedInputs metrics specification = .ok values ∧ values.map (·.1) = inputIds ∧
      values.map (fun value => value.2.evidence.length) = inputIds.map (evidenceLength metrics) := by
  choose normalized ran long using fun id =>
    normalizedInput_total issued within alwaysOn effective id
  refine ⟨inputIds.map fun id => (id, normalized id), ?_, ?_, ?_⟩
  · apply mapM_eq_ok_map
    intro id _
    exact bind_eq_ok.mpr ⟨normalized id, ran id, rfl⟩
  · rw [map_map]
    exact map_id _
  · rw [map_map]
    exact map_congr_left fun id _ => long id

theorem evidenceCount_total {values : InputValues} (natural : 0 ≤ start)
    (limit : start + ((values.map fun value => value.2.evidence.length).sum : Nat) ≤ maxScoreEvidence) :
    evidenceCount start values =
      .ok (start + ((values.map fun value => value.2.evidence.length).sum : Nat)) := by
  induction values generalizing start with
  | nil =>
    rw [map_nil, sum_nil, Nat.cast_zero, add_zero]
    rfl
  | cons value rest ih =>
    rw [map_cons, sum_cons, Nat.cast_add, ← add_assoc] at limit ⊢
    have most : maxScoreEvidence ≤ maxSafeInteger := by decide
    have here : isCount (start + value.2.evidence.length) := by
      constructor <;> omega
    exact bind_eq_ok.mpr ⟨_, safeAdd_total _ here, ih here.1 limit⟩

variable {values : InputValues} {thresholds : EfficiencyGradeThresholds}
  {record : EfficiencyConfiguration.Fields} {configuration : JsValue}

theorem inputOf_total (own : ValuesOf metrics specification values)
    (all : values.map (·.1) = inputIds) {key : EfficiencyComponentKey}
    {inputSpecification : EfficiencyScoreInputSpecification}
    (member : inputSpecification ∈ inputsByComponent key) :
    ∃ input, inputOf values inputSpecification = .ok input := by
  unfold inputOf
  cases found : values.find? fun value => value.1 = inputSpecification.id with
  | none =>
    have present : inputSpecification.id ∈ values.map (·.1) := by
      rw [all]
      cases inputSpecification.id <;> decide
    rcases mem_map.mp present with ⟨value, inValues, same⟩
    exact absurd (decide_eq_true same) (find?_eq_none.mp found value inValues)
  | some value =>
    have normalized := normalized_of_normalizedInput (own value (mem_of_find?_eq_some found))
    dsimp only
    unfold scoreInput
    cases basis : value.2.inputBasisPoints with
    | none => exact ⟨_, rfl⟩
    | some inputBasisPoints =>
      rcases normalized.ratio inputBasisPoints basis with ⟨_, _, _, _, ratio⟩
      rcases evaluate_total member (ratio_bounds ratio) with ⟨penalty, evaluated⟩
      exact ⟨_, bind_eq_ok.mpr ⟨penalty, evaluated, rfl⟩⟩

theorem weightedSum_total {α : Type} {value : α → Option Int} {weight : α → Int} {as : List α}
    (present : ∀ a ∈ as, (value a).isSome = true) :
    ∃ sum, weightedSum value weight label as = .ok sum := by
  induction as with
  | nil => exact ⟨0, rfl⟩
  | cons a rest ih =>
    rcases forall_mem_cons.mp present with ⟨here, later⟩
    rcases Option.isSome_iff_exists.mp here with ⟨number, found⟩
    rcases ih later with ⟨sum, ran⟩
    exact ⟨_, bind_eq_ok.mpr ⟨number, requiredNumber_total found, bind_eq_ok.mpr ⟨sum, ran, rfl⟩⟩⟩

theorem componentScore_total (own : ValuesOf metrics specification values)
    (all : values.map (·.1) = inputIds) (key : EfficiencyComponentKey) (weight : Int) :
    ∃ component, componentScore values ⟨key, inputsByComponent key, weight⟩ = .ok component := by
  have each : ∀ inputSpecification ∈ inputsByComponent key, ∃ input,
      inputOf values inputSpecification = .ok input ∧
        (input.state = .unavailable ∨ input.penaltyBasisPoints.isSome = true) := by
    intro inputSpecification member
    rcases inputOf_total own all member with ⟨input, ran⟩
    have scored := inputScored_of_inputOf own ran
    refine ⟨input, ran, ?_⟩
    cases basis : input.normalized.inputBasisPoints with
    | none => exact Or.inl (scored.unavailable.mpr basis)
    | some inputBasisPoints =>
      rcases scored.penalty inputBasisPoints basis with ⟨penalty, found, _⟩
      exact Or.inr (Option.isSome_iff_exists.mpr ⟨penalty, found⟩)
  rcases exists_mapM each with ⟨inputs, mapped, _, facts⟩
  by_cases lacking : ∃ input ∈ inputs, input.state = .unavailable
  · apply exists_bind mapped
    dsimp only
    rw [if_pos lacking]
    exact ⟨_, rfl⟩
  · have present : ∀ input ∈ inputs, input.penaltyBasisPoints.isSome = true := by
      intro input member
      exact (facts input member).resolve_left fun state => lacking ⟨input, member, state⟩
    rcases weightedSum_total present with ⟨sum, summed⟩
    apply exists_bind mapped
    dsimp only
    rw [if_neg lacking]
    exact exists_bind summed ⟨_, rfl⟩

theorem totalScore_total {components : List EfficiencyComponentScore}
    (states : ∀ component ∈ components, 0 ≤ component.weight ∧ (component.state = .unavailable ↔
      component.scoreBasisPoints = none ∧ component.weight ≠ 0)) :
    ∃ score, totalScore components = .ok score := by
  unfold totalScore
  split_ifs with lacking
  · exact ⟨none, rfl⟩
  · have present : ∀ component ∈ components.filter (·.weight ≠ 0),
        component.scoreBasisPoints.isSome = true := by
      intro component member
      rcases mem_filter.mp member with ⟨inComponents, weight⟩
      have facts := states component inComponents
      have different : component.weight ≠ 0 := of_decide_eq_true weight
      apply Option.isSome_iff_ne_none.mpr
      intro none
      exact lacking ⟨component, inComponents, lt_of_le_of_ne facts.1 (Ne.symm different),
        facts.2.mpr ⟨none, different⟩⟩
    rcases weightedSum_total present with ⟨sum, summed⟩
    exact ⟨_, bind_eq_ok.mpr ⟨sum, summed, rfl⟩⟩

/-! ## Grades -/

variable {n : Int}

theorem optionalInteger_of_get {key path : String} {fallback minimum maximum : Int}
    (found : get record (js key) = .number (.integer n))
    (isSafe : n.natAbs ≤ IrValidation.maxSafeInteger) (inside : minimum ≤ n ∧ n ≤ maximum) :
    optionalInteger record key path fallback minimum maximum = pure n := by
  unfold optionalInteger
  dsimp only
  rw [found]
  simp only [JsValue.isUndefined, safeInteger?, if_pos isSafe,
    Option.filter_some, decide_eq_true inside, if_true, Bool.false_eq_true, if_false]

theorem isSafe_of_percent (natural : 0 ≤ n) (most : n ≤ 100) :
    n.natAbs ≤ IrValidation.maxSafeInteger := by
  have small : n.natAbs ≤ 100 := by omega
  exact small.trans (by decide)

/-- Thresholds that have been accepted are accepted again. -/
theorem validateGrades_thresholds (accepted : EfficiencyConfiguration.AcceptedThresholds thresholds)
    (a : get record (js "A") = .number (.integer thresholds.a))
    (b : get record (js "B") = .number (.integer thresholds.b))
    (c : get record (js "C") = .number (.integer thresholds.c))
    (d : get record (js "D") = .number (.integer thresholds.d)) :
    (validateGrades record).Clean := by
  have least := accepted.least
  have cd := accepted.cd
  have bc := accepted.bc
  have ab := accepted.ab
  have most := accepted.most
  unfold validateGrades
  rw [optionalInteger_of_get a (isSafe_of_percent (by omega) (by omega)) ⟨by omega, by omega⟩,
    optionalInteger_of_get b (isSafe_of_percent (by omega) (by omega)) ⟨by omega, by omega⟩,
    optionalInteger_of_get c (isSafe_of_percent (by omega) (by omega)) ⟨by omega, by omega⟩,
    optionalInteger_of_get d (isSafe_of_percent (by omega) (by omega)) ⟨by omega, by omega⟩]
  simp only [clean_bind, clean_pure, clean_pushIf, value_pure, true_and, and_true, not_not]
  exact ⟨ab, bc, cd⟩

def thresholdsOnly (thresholds : EfficiencyGradeThresholds) : JsValue :=
  .object [(js "gradeThresholds", thresholdsValue thresholds)]

open EfficiencyConfiguration in
theorem firstJsonIssue_thresholds (thresholds : EfficiencyGradeThresholds) :
    firstJsonIssue configurationValueLimits (.object [(js "efficiency", thresholdsOnly thresholds),
      (js "version", .number (.integer configurationContractVersion))]) = none := by
  have same : firstJsonIssue configurationValueLimits
      (.object [(js "efficiency", thresholdsOnly thresholds),
        (js "version", .number (.integer configurationContractVersion))]) =
      firstJsonIssue configurationValueLimits
      (.object [(js "efficiency", thresholdsOnly ⟨90, 80, 70, 55⟩),
        (js "version", .number (.integer configurationContractVersion))]) := by
    -- no whole number is looked at
    simp only [firstJsonIssue, thresholdsOnly, thresholdsValue, inspectValue, inspectFields,
      inspectNumber]
    rfl
  rw [same]
  decide +kernel

theorem validateEfficiency_thresholds
    (accepted : EfficiencyConfiguration.AcceptedThresholds thresholds) :
    (validateEfficiency (thresholdsOnly thresholds)).Clean := by
  have grades : (validateGrades
      [(js "A", .number (.integer thresholds.a)), (js "B", .number (.integer thresholds.b)),
        (js "C", .number (.integer thresholds.c)), (js "D", .number (.integer thresholds.d))]).Clean :=
    validateGrades_thresholds accepted rfl rfl rfl rfl
  have weights : (validateWeights []).Clean := rfl
  have sum : ¬ (EfficiencyComponentKey.all.map (weightOf
      (validateWeights []).value)).sum ≠ 100 := not_not.mpr rfl
  unfold validateEfficiency
  refine (clean_bind _ _).mpr ⟨rfl, (clean_bind _ _).mpr ⟨rfl, (clean_bind _ _).mpr ⟨rfl, ?_⟩⟩⟩
  refine (clean_bind _ _).mpr ⟨rfl, (clean_bind _ _).mpr ⟨grades, ?_⟩⟩
  refine (clean_bind _ _).mpr ⟨weights, (clean_bind _ _).mpr ⟨clean_pushIf.mpr sum, ?_⟩⟩
  refine (clean_bind _ _).mpr ⟨rfl, (clean_bind _ _).mpr ⟨rfl, (clean_bind _ _).mpr ⟨rfl, ?_⟩⟩⟩
  exact (clean_bind _ _).mpr ⟨rfl, rfl⟩

theorem normalizeConfiguration_thresholds
    (accepted : EfficiencyConfiguration.AcceptedThresholds thresholds) :
    ∃ configuration, normalizeConfiguration (thresholdsOnly thresholds) = .ok configuration := by
  have clean : (validateEfficiency (thresholdsOnly thresholds)).issues = [] :=
    validateEfficiency_thresholds accepted
  refine ⟨(validateEfficiency (thresholdsOnly thresholds)).value, ?_⟩
  have validated : validateConfiguration (thresholdsOnly thresholds) =
      .ok (validateEfficiency (thresholdsOnly thresholds)).value := by
    unfold validateConfiguration
    dsimp only
    rw [firstJsonIssue_thresholds, clean]
  have present : (thresholdsOnly thresholds).isUndefined = false := rfl
  rw [normalizeConfiguration, present, if_neg Bool.false_ne_true, validated]

theorem gradeOf_total (accepted : EfficiencyConfiguration.AcceptedThresholds thresholds)
    {score : Option Int} (bounds : ∀ total, score = some total → 0 ≤ total ∧ total ≤ 100) :
    ∃ grade, gradeOf thresholds score = .ok grade := by
  cases score with
  | none => exact ⟨none, rfl⟩
  | some total =>
    rcases normalizeConfiguration_thresholds accepted with ⟨configuration, normalized⟩
    have inside : boundedInteger total 100 (js "score") .invalidInput = .ok () :=
      boundedInteger_eq_ok.mpr (bounds total rfl)
    have graded : ∃ grade, gradeEfficiencyScore total thresholds = .ok grade := by
      apply exists_bind inside
      apply exists_bind normalized
      dsimp only
      split_ifs
      · exact ⟨_, rfl⟩
      · exact ⟨_, rfl⟩
      · exact ⟨_, rfl⟩
      · exact ⟨_, rfl⟩
      · exact ⟨_, rfl⟩
    rcases graded with ⟨grade, ran⟩
    refine ⟨some grade, ?_⟩
    rw [gradeOf, ran]
    rfl

/-! ## The whole calculation -/

theorem budgets_of_create
    (created : createEfficiencyScoreSpecification configuration = .ok specification) :
    isCount specification.alwaysOnTokens ∧ isCount specification.effectiveP95Tokens ∧
      ∀ component ∈ specification.components,
        ⟨component.id, inputsByComponent component.id, component.weight⟩ = component := by
  rcases bind_eq_ok.mp created with ⟨normalized, validated, eq⟩
  have accepted := accepted_of_normalizeConfiguration validated
  cases eq
  refine ⟨isCount_budget accepted.alwaysOn.1 accepted.alwaysOn.2,
    isCount_budget accepted.effective.1 accepted.effective.2, ?_⟩
  intro component member
  rcases mem_map.mp member with ⟨key, _, rfl⟩
  rfl

/-- Issued metrics within the limits have a score by every accepted configuration. -/
theorem calculate_total (issued : Issued metrics) (within : WithinLimits metrics)
    (created : createEfficiencyScoreSpecification configuration = .ok specification) :
    ∃ score, calculateContextEfficiencyScore metrics configuration = .ok score := by
  have specified := specified_of_create created
  rcases budgets_of_create created with ⟨alwaysOn, effective, keyed⟩
  rcases normalizedInputs_total issued within alwaysOn effective with ⟨values, ran, all, long⟩
  have own := valuesOf_normalizedInputs ran
  have count : evidenceCount 0 values =
      .ok (0 + ((values.map fun value => value.2.evidence.length).sum : Nat)) := by
    apply evidenceCount_total le_rfl
    rw [long, zero_add]
    exact within.evidence
  have each : ∀ component ∈ specification.components, ∃ scored,
      componentScore values component = .ok scored ∧
        (0 ≤ scored.weight ∧ (scored.state = .unavailable ↔
          scored.scoreBasisPoints = none ∧ scored.weight ≠ 0)) := by
    intro component member
    rcases componentScore_total own all component.id component.weight with ⟨scored, made⟩
    rw [keyed component member] at made
    have exact := componentExact_of_componentScore (specified.allocated component member) own made
    refine ⟨scored, made, ?_, exact.2⟩
    rw [exact.1.weight]
    exact specified.weights component member
  rcases exists_mapM each with ⟨components, scored, _, states⟩
  rcases totalScore_total states with ⟨score, summed⟩
  have exact : Forall₂ (ComponentExact metrics) specification.components components :=
    ((forall₂_and_left _ _).mpr ⟨specified.allocated, mapM_eq_ok.mp scored⟩).imp
      fun _ _ both => (componentExact_of_componentScore both.1 own both.2).1
  rcases gradeOf_total specified.thresholds fun total found =>
      (totalScore_round specified exact summed total found).2 with
    ⟨grade, graded⟩
  have few : failIf (maxScoreEvidence <
      (0 + ((values.map fun value => value.2.evidence.length).sum : Nat) : Int)) .resourceLimit
      (js "score evidence exceeds its limit") = .ok () := by
    apply failIf_eq_ok.mpr
    rw [long, zero_add, not_lt]
    exact within.evidence
  apply exists_bind created
  apply exists_bind ran
  apply exists_bind count
  apply exists_bind few
  apply exists_bind scored
  apply exists_bind summed
  apply exists_bind graded
  exact ⟨_, rfl⟩

end AgentContextLint.EfficiencyScore
