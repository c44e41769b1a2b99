import AgentContextLint.Efficiency.ProfileTargetDistribution
import AgentContextLint.Lib.OrderStatistic

/-!
# The distribution is that of the complete totals

The percentiles are the entries for the ranks of 50 and of 95 percent (`nearestRanks_of_sorted`). What
an observation says does not depend on where its accounting stands, and the paths that are observed are
distinct, so that sorting by them leaves nothing of the order of the accountings
(`aggregate_of_perm`).
-/

namespace AgentContextLint.TargetDistribution

open Utf16 Metered OrderStatistic List
open Sorting (sortBy sortBy_perm)
open Except (ok)

/-! ## Percentiles -/

/-- The smallest entry that at least so many percent of the entries do not exceed. -/
structure IsPercentile (values : List Nat) (percent v : Nat) : Prop where
  member : v ∈ values
  enough : percent * values.length ≤ 100 * countUpTo values v
  least : ∀ w ∈ values, percent * values.length ≤ 100 * countUpTo values w → v ≤ w

/-- A share of the entries in percent, as a rank. -/
def rankOf (percent length : Nat) : Nat := (length * percent + 99) / 100

variable {percent length : Nat}

theorem rankOf_le_iff {count : Nat} :
    rankOf percent length ≤ count ↔ percent * length ≤ 100 * count := by
  unfold rankOf
  rw [Nat.mul_comm length percent]
  omega

theorem rankOf_le_length (share : percent ≤ 100) :
    rankOf percent length ≤ length := rankOf_le_iff.mpr (Nat.mul_le_mul_right length share)

theorem rankOf_pos (positive : 0 < percent) (some : 0 < length) : 0 < rankOf percent length := by
  by_contra none
  have empty := rankOf_le_iff.mp (Nat.le_of_not_lt none)
  exact absurd empty (Nat.not_le.mpr (Nat.mul_pos positive some))

theorem isPercentile_of_isRanked {values : List Nat} {v : Nat}
    (ranked : IsRanked values (rankOf percent values.length) v) :
    IsPercentile values percent v where
  member := ranked.member
  enough := rankOf_le_iff.mp ranked.enough
  least := fun w member enough => ranked.least w member (rankOf_le_iff.mpr enough)

variable {sorted values : List Nat} {index : Nat}

theorem requiredEntry_of_lt (inside : index < values.length) (message : String) :
    requiredEntry values index message = .ok values[index] := by
  unfold requiredEntry
  rw [getElem?_eq_getElem inside]
  rfl

theorem nearestRank_of_sorted (order : sorted.Pairwise (· ≤ ·)) (some : sorted ≠ [])
    (positive : 0 < percent) (share : percent ≤ 100) :
    ∃ v, nearestRank sorted percent = .ok v ∧ IsRanked sorted (rankOf percent sorted.length) v := by
  have nonempty := length_pos_iff.mpr some
  have pos : 0 < rankOf percent sorted.length := rankOf_pos positive nonempty
  have le : rankOf percent sorted.length ≤ sorted.length := rankOf_le_length share
  have inside : rankOf percent sorted.length - 1 < sorted.length := by omega
  refine ⟨sorted[rankOf percent sorted.length - 1], requiredEntry_of_lt inside _, ?_⟩
  have ranked := isRanked_getElem order inside
  rw [Nat.sub_add_cancel pos] at ranked
  exact ranked

/-- The statistics of entries: the smallest, the greatest and two percentiles between them. -/
structure NearestRanks (values : List Nat) (statistics : ProfileTargetTokenStatistics) : Prop where
  p50 : IsPercentile values 50 statistics.p50
  p95 : IsPercentile values 95 statistics.p95
  minimum : statistics.minimum ∈ values ∧ ∀ v ∈ values, statistics.minimum ≤ v
  maximum : statistics.maximum ∈ values ∧ ∀ v ∈ values, v ≤ statistics.maximum
  order : statistics.minimum ≤ statistics.p50 ∧ statistics.p50 ≤ statistics.p95 ∧
    statistics.p95 ≤ statistics.maximum

theorem sorted_sortBy_nat (values : List Nat) : (sortBy compare values).Pairwise (· ≤ ·) :=
  (Sorting.sorted_sortBy compare values).imp Nat.isLE_compare.mp

theorem nearestRanks_of_sorted (order : sorted.Pairwise (· ≤ ·)) (perm : sorted.Perm values)
    (some : values ≠ []) :
    ∃ statistics, statisticsOf sorted = .ok (.some statistics) ∧ NearestRanks values statistics := by
  have nonempty : sorted ≠ [] := fun none => some (none ▸ perm).nil_eq.symm
  have positive := length_pos_iff.mpr nonempty
  have last : sorted.length - 1 < sorted.length := Nat.sub_lt positive Nat.one_pos
  rcases nearestRank_of_sorted order nonempty (by decide : 0 < 50) (by decide) with ⟨p50, at50, ranked50⟩
  rcases nearestRank_of_sorted order nonempty (by decide : 0 < 95) (by decide) with ⟨p95, at95, ranked95⟩
  have least := isRanked_getElem order positive
  have greatest := isRanked_getElem order last
  rw [Nat.sub_add_cancel positive] at greatest
  have lengths := perm.length_eq
  refine ⟨⟨sorted[sorted.length - 1], sorted[0], p50, p95⟩, ?_, ?_, ?_, ?_, ?_, ?_⟩
  · unfold statisticsOf requiredNumber
    rw [if_neg (Nat.ne_of_gt positive), requiredEntry_of_lt last, requiredEntry_of_lt positive, at50, at95]
    rfl
  · exact isPercentile_of_isRanked (lengths ▸ ranked50.of_perm perm)
  · exact isPercentile_of_isRanked (lengths ▸ ranked95.of_perm perm)
  · refine ⟨perm.mem_iff.mp least.member, fun v member => ?_⟩
    have inSorted := perm.mem_iff.mpr member
    exact least.least v inSorted (countP_pos_iff.mpr ⟨v, inSorted, decide_eq_true (Nat.le_refl v)⟩)
  · refine ⟨perm.mem_iff.mp greatest.member, fun v member => ?_⟩
    have all := countP_eq_length.mp (Nat.le_antisymm countP_le_length greatest.enough)
    exact of_decide_eq_true (all v (perm.mem_iff.mpr member))
  · refine ⟨least.mono ranked50 ?_, ranked50.mono ranked95 ?_, ranked95.mono greatest ?_⟩
    · exact rankOf_pos (by decide) positive
    · unfold rankOf
      omega
    · exact rankOf_le_length (by decide)

/-! ## Observations -/

variable {identity : TokenizerIdentity} {entry : ProfileTargetAccounting}
  {observation : ProfileTargetTokenObservation}
  {read : List ProfileTargetTokenObservation} {accountings : List ProfileTargetAccounting}

/-- What is observed of an accounting, wherever it stands. -/
def Observed (identity : TokenizerIdentity) (entry : ProfileTargetAccounting)
    (observation : ProfileTargetTokenObservation) : Prop :=
  pathValue entry.path ".path" = .ok () ∧
    ∃ accounting, normalizeAccounting entry.accounting identity = .ok accounting ∧
      observation = ⟨accounting.alwaysOnTokens, accounting.effectiveTokens,
        decide (accounting.state = .complete), entry.path, accounting.state, accounting.traceSha256⟩

theorem observe_eq_ok : observe identity (entry, index) = .ok observation ↔
    Observed identity entry observation := by
  unfold observe Observed
  rw [check_bind_eq_ok, mapError_eq_ok, bind_eq_ok]
  refine and_congr_right fun _ => exists_congr fun accounting => ?_
  rw [mapError_eq_ok]
  exact and_congr_right fun _ => ⟨fun ran => (ok.inj ran).symm, fun same => same ▸ rfl⟩

theorem mapM_observe_eq_ok : accountings.zipIdx.mapM (observe identity) = .ok read ↔
      Forall₂ (Observed identity) accountings read := by
  have indexed : Forall₂ (fun pair observation => observe identity pair = .ok observation)
      accountings.zipIdx read ↔
      Forall₂ (fun pair observation => Observed identity pair.1 observation)
        accountings.zipIdx read :=
    ⟨Forall₂.imp fun _ _ => observe_eq_ok.mp, Forall₂.imp fun _ _ => observe_eq_ok.mpr⟩
  have firsts : accountings.zipIdx.map Prod.fst = accountings := zipIdx_map_fst 0 accountings
  rw [mapM_eq_ok, indexed]
  nth_rewrite 2 [← firsts]
  rw [forall₂_map_left_iff]

/-- The totals of an accounting are checked and kept. -/
theorem normalizeTotals_eq {totals normalized : TokenAccountingTotals}
    (ran : normalizeTotals totals = .ok normalized) : normalized = totals := by
  unfold normalizeTotals at ran
  simp only [bind_eq_ok] at ran
  rcases ran with ⟨_, _, _, _, _, _, _, _, _, _, _, _, same⟩
  exact (ok.inj same).symm

theorem Observed.facts (observed : Observed identity entry observation) :
    observation.includedInStatistics = decide (entry.accounting.state = .complete) ∧
      observation.effectiveTokens = entry.accounting.totals.effective := by
  rcases observed with ⟨_, accounting, normalized, rfl⟩
  unfold normalizeAccounting at normalized
  simp only [bind_eq_ok] at normalized
  rcases normalized with ⟨_, _, _, _, _, _, totals, kept, _, _, final⟩
  cases ok.inj final
  cases normalizeTotals_eq kept
  exact ⟨rfl, rfl⟩

/-! ## Distributions -/

def completeTotals (accountings : List ProfileTargetAccounting) : List Nat :=
  (accountings.filter fun entry => entry.accounting.state = .complete).map
    (·.accounting.totals.effective)

theorem completeTotals_of_observed (each : Forall₂ (Observed identity) accountings read) :
    (read.filter (·.includedInStatistics)).map (·.effectiveTokens) = completeTotals accountings := by
  unfold completeTotals
  induction each with
  | nil => rfl
  | @cons entry observation accountings read observed _ ih =>
    rcases observed.facts with ⟨included, effective⟩
    rw [filter_cons, filter_cons, included]
    split_ifs
    · rw [map_cons, map_cons, effective, ih]
    · exact ih

abbrev byPath : ProfileTargetTokenObservation → ProfileTargetTokenObservation → Ordering :=
  Sorting.comparingWith compareUnits (·.path)

/-- What an aggregation has checked and read. -/
structure Aggregated (input : AggregateProfileTargetDistributionInput) (profile : ProfileTargetIdentity)
    (sampling : TargetSamplingResult) (read : List ProfileTargetTokenObservation) : Prop where
  lengths : input.accountings.length = sampling.selected.length
  identity : isTokenizerIdentity input.identity = true
  profiled : normalizeProfile input.profile = .ok profile
  sampled : normalizeSampling input.sampling = .ok sampling
  few : input.accountings.length ≤ maxTargets
  each : Forall₂ (Observed input.identity) input.accountings read

variable {input : AggregateProfileTargetDistributionInput} {profile : ProfileTargetIdentity}
  {sampling : TargetSamplingResult} {observations read : List ProfileTargetTokenObservation}
  {out : ProfileTargetDistribution}
  {code : ProfileTargetDistributionErrorCode} {message : String} {passed : Unit} {condition : Prop}

theorem failWhen_eq_ok [Decidable condition] :
    failWhen condition code message = .ok passed ↔ ¬ condition := refuseIf_eq_ok

theorem failIf_eq_ok [Decidable condition] :
    failIf condition code message = .ok passed ↔ ¬ condition := refuseIf_eq_ok

theorem aggregate_eq_ok : aggregateProfileTargetDistribution input = .ok out ↔
    ∃ profile sampling read, Aggregated input profile sampling read ∧
      distributionOf input.identity profile sampling (sortBy byPath read) = .ok out := by
  unfold aggregateProfileTargetDistribution
  simp only [bind_eq_ok, exists_const, mapError_eq_ok, failWhen_eq_ok, denseArray, failIf_eq_ok,
    mapM_observe_eq_ok]
  constructor
  · rintro ⟨identity, profile, profileOk, sampling, samplingOk, few, lengths, read, each, ran⟩
    exact ⟨profile, sampling, read, ⟨not_not.mp lengths, Bool.eq_true_of_not_eq_false identity,
      profileOk, samplingOk, Nat.le_of_not_lt few, each⟩, ran⟩
  · rintro ⟨profile, sampling, read, facts, ran⟩
    refine ⟨?_, profile, facts.profiled, sampling, facts.sampled, Nat.not_lt.mpr facts.few,
      not_not.mpr facts.lengths, read, facts.each, ran⟩
    rw [facts.identity]
    decide

/-- A list whose neighbours are in order is in order. -/
theorem pairwise_of_neighbours {list : List Text}
    (neighbours : ∀ pair ∈ list.zip list.tail, compareUnits pair.1 pair.2 = .lt) :
    list.Pairwise (· < ·) := by
  rw [← isChain_iff_pairwise]
  induction list with
  | nil => exact .nil
  | cons first rest ih =>
    cases rest with
    | nil => exact .singleton first
    | cons second rest =>
      refine .cons_cons ?_ (ih fun pair member => neighbours pair (mem_cons_of_mem _ member))
      exact compareUnits_eq_lt_iff.mp (neighbours (first, second) mem_cons_self)

theorem selected_nodup (ran : normalizeSampling input.sampling = .ok sampling) :
    sampling.selected.Nodup := by
  unfold normalizeSampling at ran
  simp only [bind_eq_ok, exists_const, failIf_eq_ok] at ran
  rcases ran with ⟨_, _, _, _, ordered, same⟩
  cases ok.inj same
  have neighbours : ∀ pair ∈ input.sampling.selected.zip input.sampling.selected.tail,
      compareUnits pair.1 pair.2 = .lt := by
    intro pair member
    by_contra notLess
    exact ordered (any_eq_true.mpr ⟨pair, member, decide_eq_true notLess⟩)
  refine (pairwise_of_neighbours neighbours).imp fun less same => ?_
  exact absurd less (same ▸ List.lt_irrefl _)

section

variable (ran : distributionOf identity profile sampling observations = .ok out)

include ran

theorem paths_of_distributionOf (lengths : observations.length = sampling.selected.length) :
    observations.map (·.path) = sampling.selected := by
  unfold distributionOf at ran
  rcases check_bind_eq_ok.mp ran with ⟨passed, _⟩
  have same := not_not.mp (failWhen_eq_ok.mp passed)
  refine ext_getElem? fun index => ?_
  rcases Nat.lt_or_ge index sampling.selected.length with inside | outside
  · exact same index inside
  · rw [getElem?_eq_none outside, getElem?_eq_none]
    rw [length_map, lengths]
    exact outside

theorem statistics_of_distributionOf :
    statisticsOf (completeValues observations) = .ok out.statistics := by
  unfold distributionOf at ran
  rcases check_bind_eq_ok.mp ran with ⟨_, rest⟩
  rcases bind_eq_ok.mp rest with ⟨statistics, found, same⟩
  cases ok.inj same
  exact found

end

/-- The observations are told apart by their paths. -/
theorem Aggregated.ties (facts : Aggregated input profile sampling read)
    (ran : distributionOf input.identity profile sampling (sortBy byPath read) = .ok out) :
    ∀ x ∈ read, ∀ y ∈ read, byPath x y = .eq → x = y := by
  have perm := sortBy_perm byPath read
  have lengths : (sortBy byPath read).length = sampling.selected.length := by
    rw [perm.length_eq, ← facts.each.length_eq, facts.lengths]
  have distinct : (read.map (·.path)).Nodup := by
    rw [← (perm.map _).nodup_iff, paths_of_distributionOf ran lengths]
    exact selected_nodup facts.sampled
  intro x inRead y inRead' same
  exact inj_on_of_nodup_map distinct inRead inRead' (compareUnits_eq_iff.mp same)

theorem aggregate_of_perm {others : List ProfileTargetAccounting}
    (perm : others.Perm input.accountings)
    (ran : aggregateProfileTargetDistribution input = .ok out) :
    aggregateProfileTargetDistribution { input with accountings := others } = .ok out := by
  rcases aggregate_eq_ok.mp ran with ⟨profile, sampling, read, facts, distribution⟩
  rcases perm_comp_forall₂ perm facts.each with ⟨otherRead, each, permRead⟩
  refine aggregate_eq_ok.mpr ⟨profile, sampling, otherRead, ?_, ?_⟩
  · exact {
      identity := facts.identity
      profiled := facts.profiled
      sampled := facts.sampled
      few := perm.length_eq ▸ facts.few
      lengths := perm.length_eq.trans facts.lengths
      each := each }
  · have same := Sorting.sortBy_eq_of_perm byPath (facts.ties distribution) permRead.symm
    exact same ▸ distribution

theorem statistics_of_aggregate (ran : aggregateProfileTargetDistribution input = .ok out) :
    (completeTotals input.accountings = [] ∧ out.statistics = none) ∨
      ∃ statistics, out.statistics = some statistics ∧
        NearestRanks (completeTotals input.accountings) statistics := by
  rcases aggregate_eq_ok.mp ran with ⟨profile, sampling, read, facts, distribution⟩
  have found := statistics_of_distributionOf distribution
  have perm : (completeValues (sortBy byPath read)).Perm (completeTotals input.accountings) := by
    rw [← completeTotals_of_observed facts.each]
    exact (sortBy_perm _ _).trans (((sortBy_perm byPath read).filter _).map _)
  by_cases none : completeTotals input.accountings = []
  · rw [none] at perm
    rw [perm.eq_nil] at found
    exact .inl ⟨none, (ok.inj found).symm⟩
  · rcases nearestRanks_of_sorted (sorted_sortBy_nat _) perm none with ⟨statistics, same, ranks⟩
    exact .inr ⟨statistics, ok.inj (found.symm.trans same), ranks⟩

/-- Entries have percentiles in their order, which are the statistics of a distribution of them; the
distribution is that of the complete totals, in whatever order the accountings are given. -/
theorem distribution_exact :
    (∀ values ≠ [], ∃ statistics,
      statisticsOf (sortBy compare values) = .ok (some statistics) ∧
        NearestRanks values statistics) ∧
    ∀ input : AggregateProfileTargetDistributionInput,
      (∀ out, aggregateProfileTargetDistribution input = .ok out →
        (completeTotals input.accountings = [] ∧ out.statistics = none) ∨
          ∃ statistics, out.statistics = some statistics ∧
            NearestRanks (completeTotals input.accountings) statistics) ∧
      ∀ others : List ProfileTargetAccounting, others.Perm input.accountings →
        (aggregateProfileTargetDistribution { input with accountings := others }).toOption =
          (aggregateProfileTargetDistribution input).toOption := by
  refine ⟨fun values some => ?_, fun input => ⟨fun out => statistics_of_aggregate, ?_⟩⟩
  · exact nearestRanks_of_sorted (sorted_sortBy_nat values) (sortBy_perm _ _) some
  · intro others perm
    refine toOption_eq fun out => ⟨fun ran => ?_, aggregate_of_perm perm⟩
    let other := { input with accountings := others }
    have back : input.accountings.Perm other.accountings := perm.symm
    have again : aggregateProfileTargetDistribution
        { other with accountings := input.accountings } = .ok out := aggregate_of_perm back ran
    exact again

/-- One document that is read once, for a number of tokens. -/
def singleRead (path : String) (tokens : Nat) : ProfileTargetAccounting where
  path := js path
  accounting := {
    contents := [⟨js "content:" ++ replicate 64 0x61, [js "d"], tokens⟩]
    documents := [⟨js "content:" ++ replicate 64 0x61, js "d", js path, tokens, tokens⟩]
    identity := ⟨js "utf8.byte", .exact, js "1.0.0"⟩
    issues := []
    occurrences := [{
      activation := some .always
      availableTokens := some tokens
      consumedTokens := some tokens
      disposition := .included
      occurrenceId := js "o"
      ordinal := 0
      sourceBytesAvailable := some tokens
      sourceBytesConsumed := some tokens
      state := .entry
      targetDocumentId := some (js "d")
      targetPath := some (js path)
      truncated := some false }]
    state := .complete
    totals := ⟨tokens, 0, tokens, tokens, tokens⟩
    traceSha256 := replicate 64 0x30 }

def threeTargets : AggregateProfileTargetDistributionInput where
  accountings := [singleRead "a" 7, singleRead "b" 3, singleRead "c" 5]
  identity := ⟨js "utf8.byte", .exact, js "1.0.0"⟩
  profile := ⟨none, js "codex-cli", js "1.0.0", js "spec", js "cli"⟩
  sampling := ⟨[js "a", js "b", js "c"], .complete, .exhaustive⟩

/-- Of three totals the median is the second and the 95th percentile the greatest, in any order. -/
theorem distribution_exact_three :
    (∃ statistics, statisticsOf (sortBy compare [7, 3, 5]) = .ok (some statistics) ∧
      NearestRanks [7, 3, 5] statistics) ∧
    (aggregateProfileTargetDistribution { threeTargets with
      accountings := [singleRead "b" 3, singleRead "a" 7, singleRead "c" 5] }).toOption.bind
        (·.statistics) = some ⟨7, 3, 5, 7⟩ := by
  have exact := distribution_exact
  have swapped : [singleRead "b" 3, singleRead "a" 7, singleRead "c" 5].Perm
      threeTargets.accountings := .swap _ _ _
  refine ⟨exact.1 [7, 3, 5] (cons_ne_nil _ _), ?_⟩
  rw [(exact.2 threeTargets).2 _ swapped]
  decide +kernel

end AgentContextLint.TargetDistribution
