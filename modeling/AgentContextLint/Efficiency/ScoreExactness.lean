import AgentContextLint.Efficiency.IssuedMetrics
import AgentContextLint.Efficiency.ScoreOrder

/-!
# The efficiency score is exact, bounded and in order

What the preceding modules show of a calculation, for all metrics and all accepted configurations.
A component without a weight may lack evidence while there is a score; it has none of its own then.
-/

namespace AgentContextLint.EfficiencyScore

open Utf16 Metered

/-- Issued metrics have a score within the limits. Whatever has one has an exact score, which is
missing only where a component with a weight lacks evidence, and neither a component's score nor the
total rises as ratios grow. -/
theorem scores_exact_and_ordered :
    (∀ metrics configuration specification, Issued metrics → WithinLimits metrics →
      createEfficiencyScoreSpecification configuration = .ok specification →
      ∃ score, calculateContextEfficiencyScore metrics configuration = .ok score) ∧
    (∀ metrics configuration score,
      calculateContextEfficiencyScore metrics configuration = .ok score →
      ScoreExact metrics configuration score) ∧
    ∀ metrics other configuration score score',
      calculateContextEfficiencyScore metrics configuration = .ok score →
      calculateContextEfficiencyScore other configuration = .ok score' →
      NoLarger score score' → NoSmaller score score' := by
  refine ⟨?_, ?_, ?_⟩
  · intro metrics configuration specification issued within created
    exact calculate_total issued within created
  · intro metrics configuration score ran
    exact scoreExact_of_calculate ran
  · intro metrics other configuration score score' ran ran' ratios
    exact noSmaller_of_noLarger (scoreExact_of_calculate ran) (scoreExact_of_calculate ran') ratios

/-! ## Components without a weight -/

def codexProfile : ProfileTargetIdentity := ⟨none, js "codex", js "1", js "s1", js "cli"⟩

def claudeProfile : ProfileTargetIdentity := ⟨none, js "claude-code", js "1", js "s1", js "cli"⟩

/-- Metrics of one document for two profiles, the divergence of which is not known. -/
def undivergedMetrics : ContextEfficiencyMetrics where
  amplification := [codexProfile, claudeProfile].map fun profile =>
    ⟨some 10000, profileKey profile, .complete⟩
  broadScope := [codexProfile, claudeProfile].map fun profile =>
    ⟨[⟨some 10000, js "d1", 40, js "AGENTS.md", .complete⟩], profileKey profile, .complete⟩
  deadScope := [codexProfile, claudeProfile].map fun profile => ⟨profileKey profile, .measured, some 0⟩
  density := ⟨some 2500000, [⟨some 2500000, js "d1", js "AGENTS.md", .complete, 40⟩], 40, .complete⟩
  distributions := [codexProfile, claudeProfile].map fun profile =>
    ⟨profile, .complete, .exhaustive, .complete, some 40, [⟨40, true⟩]⟩
  divergence := ⟨0, 1, 1, 0, .partly⟩
  duplication := ⟨0, 0⟩
  tokenizerMeasurement := .estimate

/-- Weights that leave the consistency of agents out. -/
def withoutConsistency : JsValue := .object [(js "componentWeights", .object [
  (js "budgetFit", .number (.integer 35)), (js "scopePrecision", .number (.integer 25)),
  (js "nonRedundancy", .number (.integer 20)), (js "reachability", .number (.integer 10)),
  (js "instructionDensity", .number (.integer 10)),
  (js "crossAgentConsistency", .number (.integer 0))])]

/-- The same metrics with text that is there twice. -/
def redundantMetrics : ContextEfficiencyMetrics := { undivergedMetrics with duplication := ⟨10, 0⟩ }

theorem issued_undivergedMetrics : Issued undivergedMetrics := by
  constructor <;> simp [undivergedMetrics, isCount, maxSafeInteger]

theorem withinLimits_undivergedMetrics : WithinLimits undivergedMetrics where
  broadScope := by decide
  deadScope := by decide
  deadScopeDenominator := by decide
  evidence := by decide

def ratiosOf (score : ContextEfficiencyScore) : List (List (Option Int)) :=
  score.components.map fun component => component.inputs.map (·.normalized.inputBasisPoints)

theorem noLarger_of_ratiosOf {first second : ContextEfficiencyScore}
    (ratios : List.Forall₂ (List.Forall₂ (Option.Rel (· ≤ ·))) (ratiosOf first) (ratiosOf second)) :
    NoLarger first second := by
  unfold ratiosOf at ratios
  simp only [List.forall₂_map_left_iff, List.forall₂_map_right_iff] at ratios
  exact ratios.imp fun _ _ inputs => inputs.imp fun _ _ => Or.inr

/-- The total and the ratios of a score, and that a component has none. -/
theorem score_undivergedMetrics :
    ((calculateContextEfficiencyScore undivergedMetrics withoutConsistency).toOption.map fun score =>
      (score.score, ratiosOf score, score.components.any (·.scoreBasisPoints.isNone))) =
        some (some 75, [[some 160, some 80], [some 10000], [some 0, some 0], [some 0, some 0],
          [some 0], [none]], true) := by
  decide +kernel

/-- Redundant tokens lower the score. -/
theorem scores_exact_undiverged : ∃ score score',
    calculateContextEfficiencyScore undivergedMetrics withoutConsistency = .ok score ∧
      calculateContextEfficiencyScore redundantMetrics withoutConsistency = .ok score' ∧
      ScoreExact undivergedMetrics withoutConsistency score ∧
      score.score = some 75 ∧ score'.score = some 63 ∧ NoSmaller score score' := by
  have created : (createEfficiencyScoreSpecification withoutConsistency).toOption.isSome = true := by
    decide +kernel
  rcases Option.isSome_iff_exists.mp created with ⟨specification, specified⟩
  rcases scores_exact_and_ordered.1 _ _ _ issued_undivergedMetrics
    withinLimits_undivergedMetrics (eq_ok_of_toOption specified) with ⟨score, ran⟩
  have facts := score_undivergedMetrics
  have redundantFacts : ((calculateContextEfficiencyScore redundantMetrics withoutConsistency).toOption.map
      fun score => (score.score, ratiosOf score)) = some (some 63, [[some 160, some 80], [some 10000],
        [some 2500, some 0], [some 0, some 0], [some 0], [none]]) := by
    decide +kernel
  rcases Option.map_eq_some_iff.mp redundantFacts with ⟨score', found, redundant⟩
  have ran' := eq_ok_of_toOption found
  rw [ran] at facts
  rcases Prod.mk.inj (Option.some.inj facts) with ⟨total, facts⟩
  rcases Prod.mk.inj facts with ⟨ratios, -⟩
  rcases Prod.ext_iff.mp redundant with ⟨total', ratios'⟩
  have noLarger : NoLarger score score' := by
    apply noLarger_of_ratiosOf
    rw [show ratiosOf score = _ from ratios, show ratiosOf score' = _ from ratios']
    simp
  exact ⟨score, score', ran, ran', scores_exact_and_ordered.2.1 _ _ _ ran, total, total',
    scores_exact_and_ordered.2.2 _ _ _ _ _ ran ran' noLarger⟩

/-- There is a total, and yet a component without a score. -/
theorem not_all_components_scored : Issued undivergedMetrics ∧
    ¬ ∀ score, calculateContextEfficiencyScore undivergedMetrics withoutConsistency = .ok score →
      score.score ≠ none → ∀ component ∈ score.components, ∃ scoreBasisPoints,
        component.scoreBasisPoints = some scoreBasisPoints ∧
          0 ≤ scoreBasisPoints ∧ scoreBasisPoints ≤ 10000 := by
  refine ⟨issued_undivergedMetrics, fun all => ?_⟩
  rcases Option.map_eq_some_iff.mp score_undivergedMetrics with ⟨score, found, facts⟩
  rcases Prod.mk.inj facts with ⟨total, facts⟩
  rcases List.any_eq_true.mp (Prod.mk.inj facts).2 with ⟨component, member, none⟩
  have present : score.score ≠ Option.none := fun absent => by cases total.symm.trans absent
  rcases all score (eq_ok_of_toOption found) present component member with ⟨_, found, _⟩
  rw [found] at none
  cases none

end AgentContextLint.EfficiencyScore
