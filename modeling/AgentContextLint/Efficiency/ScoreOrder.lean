import AgentContextLint.Efficiency.ScoreArithmetic

/-!
# The order of efficiency scores

Greater ratios do not give greater scores, whatever is rounded on the way: an input with a greater
ratio has no smaller penalty, hence its component no greater score, and neither has the total
(`noSmaller_of_noLarger`).
-/

namespace AgentContextLint.EfficiencyScore

open Utf16 Metered HalfUp List
open Option (Rel)

variable {metrics : ContextEfficiencyMetrics}

/-! ## Ratios in order -/

def ratioOf (input : EfficiencyScoreInputResult) : Option (WithTop ℚ) :=
  input.normalized.numerator.bind fun numerator =>
    input.normalized.denominator.map fun denominator => exactRatio numerator denominator

/-- A ratio is not larger, exactly or in basis points. -/
def RatioLe (first second : EfficiencyScoreInputResult) : Prop :=
  Rel (· ≤ ·) (ratioOf first) (ratioOf second) ∨
    Rel (· ≤ ·) first.normalized.inputBasisPoints second.normalized.inputBasisPoints

def NoLarger (first second : ContextEfficiencyScore) : Prop :=
  Forall₂ (fun component other => Forall₂ RatioLe component.inputs other.inputs)
    first.components second.components

/-- No component score is smaller, nor is the total. -/
def NoSmaller (first second : ContextEfficiencyScore) : Prop :=
  Forall₂ (fun component other =>
      Rel (· ≥ ·) component.scoreBasisPoints other.scoreBasisPoints ∧
      Rel (· ≥ ·) component.score other.score) first.components second.components ∧
    Rel (· ≥ ·) first.score second.score

variable {other : ContextEfficiencyMetrics} {first second : EfficiencyScoreInputResult}
  {inputSpecification : EfficiencyScoreInputSpecification}

theorem inputBasisPoints_le (scored : InputScored metrics inputSpecification first)
    (scored' : InputScored other inputSpecification second) (le : RatioLe first second) :
    Rel (· ≤ ·) first.normalized.inputBasisPoints second.normalized.inputBasisPoints := by
  rcases le with exact | rounded
  · cases basis : first.normalized.inputBasisPoints with
    | none =>
      have absent : ratioOf first = none := by
        rw [ratioOf, scored.normalized.absent basis]
        rfl
      cases basis' : second.normalized.inputBasisPoints with
      | none => exact Rel.none
      | some otherBasis =>
        rcases scored'.normalized.ratio otherBasis basis' with ⟨_, _, numerator, denominator, _⟩
        rw [absent, ratioOf, numerator, denominator] at exact
        cases exact
    | some firstBasis =>
      rcases scored.normalized.ratio firstBasis basis with ⟨_, _, numerator, denominator, ratio⟩
      cases basis' : second.normalized.inputBasisPoints with
      | none =>
        rw [ratioOf, numerator, denominator, ratioOf, scored'.normalized.absent basis'] at exact
        cases exact
      | some otherBasis =>
        rcases scored'.normalized.ratio otherBasis basis' with
          ⟨_, _, numerator', denominator', ratio'⟩
        rw [ratioOf, numerator, denominator, ratioOf, numerator', denominator'] at exact
        cases exact with
        | some le => exact Rel.some (ratio_mono le ratio ratio')
  · exact rounded

/-- A greater ratio has no smaller penalty. -/
theorem penalty_le (scored : InputScored metrics inputSpecification first)
    (scored' : InputScored other inputSpecification second) (le : RatioLe first second) :
    first.penaltyBasisPoints.getD 0 ≤ second.penaltyBasisPoints.getD 0 := by
  have basis := inputBasisPoints_le scored scored' le
  cases found : first.normalized.inputBasisPoints with
  | none =>
    rw [scored.missing found]
    exact scored'.bounds.1
  | some firstBasis =>
    rcases scored.penalty firstBasis found with ⟨penalty, here, evaluated⟩
    cases found' : second.normalized.inputBasisPoints with
    | none =>
      rw [found, found'] at basis
      cases basis
    | some otherBasis =>
      rcases scored'.penalty otherBasis found' with ⟨penalty', here', evaluated'⟩
      rw [found, found'] at basis
      cases basis with
      | some smaller =>
        rw [here, here']
        exact evaluate_mono smaller evaluated evaluated'

variable {inputSpecifications : List EfficiencyScoreInputSpecification}
  {firsts seconds : List EfficiencyScoreInputResult}

section

variable (scored : Forall₂ (InputScored metrics) inputSpecifications firsts)

include scored

theorem lacksEvidence_iff (scored' : Forall₂ (InputScored other) inputSpecifications seconds)
    (ratios : Forall₂ RatioLe firsts seconds) :
    (∃ input ∈ inputSpecifications, LacksEvidence metrics input.id) ↔
      ∃ input ∈ inputSpecifications, LacksEvidence other input.id := by
  induction scored generalizing seconds with
  | nil => simp
  | @cons _ input _ _ here later ih =>
    cases scored' with
    | @cons _ input' _ _ here' later' =>
      cases ratios with
      | cons le rest =>
        have basis := inputBasisPoints_le here here' le
        have same : input.normalized.inputBasisPoints = none ↔
            input'.normalized.inputBasisPoints = none := by
          cases basis' : input.normalized.inputBasisPoints <;>
            cases basis'' : input'.normalized.inputBasisPoints <;>
            rw [basis', basis''] at basis <;> simp <;> cases basis
        rw [exists_mem_cons_iff, exists_mem_cons_iff, ih later' rest,
          ← here.normalized.missing, ← here'.normalized.missing, same]

theorem penalties_le (scored' : Forall₂ (InputScored other) inputSpecifications seconds)
    (ratios : Forall₂ RatioLe firsts seconds)
    (natural : ∀ input ∈ inputSpecifications, 0 ≤ input.allocationBasisPoints) :
    (firsts.map fun input =>
        input.penaltyBasisPoints.getD 0 * input.specification.allocationBasisPoints).sum ≤
      (seconds.map fun input =>
        input.penaltyBasisPoints.getD 0 * input.specification.allocationBasisPoints).sum := by
  induction scored generalizing seconds with
  | nil =>
    cases scored'
    exact le_rfl
  | cons here later ih =>
    cases scored' with
    | cons here' later' =>
      cases ratios with
      | cons le rest =>
        rw [forall_mem_cons] at natural
        rw [map_cons, sum_cons, map_cons, sum_cons, here.specified, here'.specified]
        exact add_le_add (mul_le_mul_of_nonneg_right (penalty_le here here' le) natural.1)
          (ih later' rest natural.2)

end

theorem round_mono {x y : ℚ} (le : x ≤ y) : round x ≤ round y := by
  rw [round_eq, round_eq]
  exact Int.floor_mono (by linarith)

/-- A component with greater ratios has no greater score. -/
theorem component_ge {componentSpecification : EfficiencyScoreComponentSpecification}
    {component component' : EfficiencyComponentScore} (allocated : Allocated componentSpecification)
    (exact : ComponentExact metrics componentSpecification component)
    (exact' : ComponentExact other componentSpecification component')
    (ratios : Forall₂ RatioLe component.inputs component'.inputs) :
    Rel (· ≥ ·) component.scoreBasisPoints component'.scoreBasisPoints ∧
      Rel (· ≥ ·) component.score component'.score := by
  have missing : component.scoreBasisPoints = none ↔ component'.scoreBasisPoints = none := by
    rw [exact.missing, exact'.missing, lacksEvidence_iff exact.inputs exact'.inputs ratios]
  rw [exact.score, exact'.score]
  cases found : component.scoreBasisPoints with
  | none =>
    rw [missing.mp found]
    exact ⟨Rel.none, Rel.none⟩
  | some scoreBasisPoints =>
    cases found' : component'.scoreBasisPoints with
    | none => cases found.symm.trans (missing.mpr found')
    | some scoreBasisPoints' =>
      have sums := penalties_le exact.inputs exact'.inputs ratios allocated.1
      have means : penaltyMean component.inputs ≤ penaltyMean component'.inputs :=
        div_le_div_of_nonneg_right (Int.cast_le.mpr sums) (by decide)
      have ge : scoreBasisPoints' ≤ scoreBasisPoints := by
        rw [exact.formula _ found, exact'.formula _ found']
        exact sub_le_sub_left (round_mono means) _
      have percent : ((scoreBasisPoints' : ℚ) / 100) ≤ scoreBasisPoints / 100 :=
        div_le_div_of_nonneg_right (Int.cast_le.mpr ge) (by decide)
      exact ⟨Rel.some ge, Rel.some (round_mono percent)⟩

variable {componentSpecifications : List EfficiencyScoreComponentSpecification}
  {components components' : List EfficiencyComponentScore}

theorem components_ge (allocated : ∀ component ∈ componentSpecifications, Allocated component)
    (exact : Forall₂ (ComponentExact metrics) componentSpecifications components)
    (exact' : Forall₂ (ComponentExact other) componentSpecifications components')
    (ratios : Forall₂ (fun component component' =>
      Forall₂ RatioLe component.inputs component'.inputs) components components') :
    Forall₂ (fun component component' =>
      Rel (· ≥ ·) component.scoreBasisPoints component'.scoreBasisPoints ∧
      Rel (· ≥ ·) component.score component'.score) components components' := by
  induction exact generalizing components' with
  | nil =>
    cases exact'
    exact Forall₂.nil
  | cons here later ih =>
    cases exact' with
    | cons here' later' =>
      cases ratios with
      | cons le rest =>
        rw [forall_mem_cons] at allocated
        exact Forall₂.cons (component_ge allocated.1 here here' le)
          (ih allocated.2 later' rest)

theorem components_lack_iff
    (exact : Forall₂ (ComponentExact metrics) componentSpecifications components)
    (exact' : Forall₂ (ComponentExact other) componentSpecifications components')
    (ratios : Forall₂ (fun component component' =>
      Forall₂ RatioLe component.inputs component'.inputs) components components') :
    (∃ component ∈ componentSpecifications, 0 < component.weight ∧
        ∃ input ∈ component.inputs, LacksEvidence metrics input.id) ↔
      ∃ component ∈ componentSpecifications, 0 < component.weight ∧
        ∃ input ∈ component.inputs, LacksEvidence other input.id := by
  induction exact generalizing components' with
  | nil => simp
  | cons here later ih =>
    cases exact' with
    | cons here' later' =>
      cases ratios with
      | cons le rest =>
        rw [exists_mem_cons_iff, exists_mem_cons_iff, ih later' rest,
          lacksEvidence_iff here.inputs here'.inputs le]

theorem getD_le {value value' : Option Int} (ge : Rel (· ≥ ·) value value') :
    value'.getD 0 ≤ value.getD 0 := by
  cases ge with
  | some ge => exact ge
  | none => exact le_rfl

theorem scores_ge (natural : ∀ component ∈ componentSpecifications, 0 ≤ component.weight)
    (exact : Forall₂ (ComponentExact metrics) componentSpecifications components)
    (exact' : Forall₂ (ComponentExact other) componentSpecifications components')
    (smaller : Forall₂ (fun component component' =>
      Rel (· ≥ ·) component.scoreBasisPoints component'.scoreBasisPoints ∧
      Rel (· ≥ ·) component.score component'.score) components components') :
    (components'.map fun component =>
        component.scoreBasisPoints.getD 0 * component.weight).sum ≤
      (components.map fun component =>
        component.scoreBasisPoints.getD 0 * component.weight).sum := by
  induction exact generalizing components' with
  | nil =>
    cases exact'
    exact le_rfl
  | cons here later ih =>
    cases exact' with
    | cons here' later' =>
      cases smaller with
      | cons ge rest =>
        rw [forall_mem_cons] at natural
        rw [map_cons, sum_cons, map_cons, sum_cons, here.weight, here'.weight]
        exact add_le_add (mul_le_mul_of_nonneg_right (getD_le ge.1) natural.1)
          (ih natural.2 later' rest)

/-- Of two scores by one configuration, the one with the greater ratios is not greater. -/
theorem noSmaller_of_noLarger {configuration : JsValue} {score score' : ContextEfficiencyScore}
    (exact : ScoreExact metrics configuration score) (exact' : ScoreExact other configuration score')
    (ratios : NoLarger score score') : NoSmaller score score' := by
  have same : score'.specification = score.specification :=
    Except.ok.inj (exact'.specified.symm.trans exact.specified)
  have specified := specified_of_create exact.specified
  have components' := exact'.components
  have missing' := exact'.missing
  rw [same] at components' missing'
  have smaller := components_ge specified.allocated exact.components components' ratios
  refine ⟨smaller, ?_⟩
  have missing : score.score = none ↔ score'.score = none := by
    rw [exact.missing, missing', components_lack_iff exact.components components' ratios]
  cases found : score.score with
  | none =>
    rw [missing.mp found]
    exact Rel.none
  | some total =>
    cases found' : score'.score with
    | none => cases found.symm.trans (missing.mpr found')
    | some total' =>
      have sums := scores_ge specified.weights exact.components components' smaller
      have means : scoreMean score'.components ≤ scoreMean score.components :=
        div_le_div_of_nonneg_right (Int.cast_le.mpr sums) (by decide)
      apply Rel.some
      rw [exact.formula _ found, exact'.formula _ found']
      exact round_mono means

end AgentContextLint.EfficiencyScore
