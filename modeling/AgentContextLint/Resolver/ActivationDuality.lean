import AgentContextLint.Resolver.ActivationLaws

/-!
# The duality of activations

A complement swaps the states of activations and keeps their facts. So the operands that decide an
intersection of complements are the complements of those that decide the union, with the same texts
of their proofs, and the two come to the same result or fail for the same operands
(`complement_union`).
-/

namespace AgentContextLint.ActivationAlgebra

open Utf16 Metered Sorting

variable {operand out : ActivationResult} {xs : List ActivationResult}
  {deciding neutral : ActivationState} {operation : Text}

/-! ## One activation -/

theorem complementState_complementState (state : ActivationState) :
    complementState (complementState state) = state := by
  cases state <;> rfl

theorem complementState_injective : Function.Injective complementState :=
  Function.LeftInverse.injective complementState_complementState

def complemented (operand : ActivationResult) : ActivationResult :=
  ⟨canonical operand.provenance, complementState operand.state⟩

theorem normalizeResult_eq_ok : normalizeResult operand = .ok out ↔
    FactsOk operand.provenance ∧ out = canonicalResult operand := makeResult_eq_ok

theorem activationComplement_eq_ok : activationComplement operand = .ok out ↔
    FactsOk operand.provenance ∧ out = complemented operand := by
  unfold activationComplement
  rw [bind_eq_ok]
  constructor
  · rintro ⟨normalized, first, second⟩
    rcases normalizeResult_eq_ok.mp first with ⟨ok, rfl⟩
    rcases makeResult_eq_ok.mp second with ⟨_, rfl⟩
    exact ⟨ok, congrArg (ActivationResult.mk · _) canonical_canonical⟩
  · rintro ⟨ok, rfl⟩
    refine ⟨_, normalizeResult_eq_ok.mpr ⟨ok, rfl⟩, ?_⟩
    refine makeResult_eq_ok.mpr ⟨factsOk_canonical ok, ?_⟩
    exact (congrArg (ActivationResult.mk · _) canonical_canonical).symm

/-- The complement of a complement is the activation itself, in its canonical form. -/
theorem activationComplement_twice (complement : activationComplement operand = .ok out) :
    activationComplement out = normalizeResult operand ∧
      normalizeResult operand = .ok (canonicalResult operand) := by
  rcases activationComplement_eq_ok.mp complement with ⟨ok, rfl⟩
  have normal := normalizeResult_eq_ok.mpr ⟨ok, rfl⟩
  refine ⟨?_, normal⟩
  rw [normal]
  refine activationComplement_eq_ok.mpr ⟨factsOk_canonical ok, ?_⟩
  unfold complemented canonicalResult
  rw [complementState_complementState]
  exact (congrArg (ActivationResult.mk · _) canonical_canonical).symm

/-! ## Lists of activations -/

theorem mapM_complement_eq_ok {ys : List ActivationResult} : xs.mapM activationComplement = .ok ys ↔
      (∀ operand ∈ xs, FactsOk operand.provenance) ∧ ys = xs.map complemented := by
  constructor
  · intro ran
    have each : ∀ operand ∈ xs, FactsOk operand.provenance := by
      intro operand member
      rcases exists_mem_of_mapM ran member with ⟨result, _, complement⟩
      exact (activationComplement_eq_ok.mp complement).1
    have all : xs.mapM activationComplement = .ok (xs.map complemented) :=
      mapM_eq_ok_map fun operand member => activationComplement_eq_ok.mpr ⟨each operand member, rfl⟩
    exact ⟨each, Except.ok.inj (ran.symm.trans all)⟩
  · rintro ⟨each, rfl⟩
    exact mapM_eq_ok_map fun operand member => activationComplement_eq_ok.mpr ⟨each operand member, rfl⟩

theorem canonicalResult_complemented (operand : ActivationResult) :
    canonicalResult (complemented operand) = complemented operand :=
  congrArg (ActivationResult.mk · _) canonical_canonical

theorem allFacts_complemented (xs : List ActivationResult) :
    allFacts (xs.map complemented) = allFacts xs := by
  unfold allFacts mergeProofs
  rw [List.map_map, List.flatMap_map, List.flatMap_map]
  refine List.flatMap_congr fun operand _ => ?_
  rw [Function.comp_apply, canonicalResult_complemented]
  rfl

theorem admissible_complemented (each : ∀ operand ∈ xs, FactsOk operand.provenance) :
    Admissible (xs.map complemented) ↔ Admissible xs := by
  constructor
  · intro admissible
    refine ⟨?_, each, ?_⟩
    · rw [← List.length_map complemented]
      exact admissible.few
    · rw [← allFacts_complemented]
      exact admissible.all
  · intro admissible
    refine ⟨?_, ?_, ?_⟩
    · rw [List.length_map]
      exact admissible.few
    · intro result member
      rcases List.mem_map.mp member with ⟨operand, inOperands, rfl⟩
      exact factsOk_canonical (each operand inOperands)
    · rw [allFacts_complemented]
      exact admissible.all

theorem canonicalResult_canonicalResult (operand : ActivationResult) :
    canonicalResult (canonicalResult operand) = canonicalResult operand :=
  congrArg (ActivationResult.mk · _) canonical_canonical

theorem proofKey_complemented (operand : ActivationResult) :
    proofKey (complemented operand) = proofKey (canonicalResult operand) := rfl

/-- The activations that decide are swapped with their complements. -/
theorem mem_decidedOf_complemented {result : ActivationResult} :
    result ∈ decidedOf (complementState deciding) (xs.map complemented) ↔
      ∃ other ∈ decidedOf deciding xs, complemented other = result := by
  simp only [mem_decidedOf, List.mem_map]
  constructor
  · rintro ⟨_, ⟨operand, member, rfl⟩, state, rfl⟩
    refine ⟨canonicalResult operand, ⟨operand, member, complementState_injective state, rfl⟩, ?_⟩
    rw [canonicalResult_complemented]
    exact congrArg (ActivationResult.mk · _) canonical_canonical
  · rintro ⟨_, ⟨operand, member, rfl, rfl⟩, rfl⟩
    refine ⟨complemented operand, ⟨operand, member, rfl⟩, rfl, ?_⟩
    rw [canonicalResult_complemented]
    exact (congrArg (ActivationResult.mk · _) canonical_canonical).symm

theorem undecidedState_complemented : undecidedState (complementState neutral)
    (xs.map complemented) = complementState (undecidedState neutral xs) := by
  have same : (∃ operand ∈ xs.map complemented, operand.state = .indeterminate) ↔
      ∃ operand ∈ xs, operand.state = .indeterminate := by
    simp only [List.mem_map]
    constructor
    · rintro ⟨_, ⟨operand, member, rfl⟩, state⟩
      exact ⟨operand, member, complementState_injective state⟩
    · rintro ⟨operand, member, state⟩
      exact ⟨_, ⟨operand, member, rfl⟩, congrArg complementState state⟩
  unfold undecidedState
  rw [if_congr same rfl rfl]
  split_ifs
  · rfl
  · rfl

theorem IsLeast.complemented {proof : ActivationResult} (least : IsLeast (decidedOf deciding xs) proof) :
    IsLeast (decidedOf (complementState deciding) (xs.map ActivationAlgebra.complemented))
      (ActivationAlgebra.complemented proof) where
  member := mem_decidedOf_complemented.mpr ⟨proof, least.member, rfl⟩
  least := by
    intro result member
    rcases mem_decidedOf_complemented.mp member with ⟨other, inDecided, rfl⟩
    rcases mem_decidedOf.mp inDecided with ⟨operand, _, _, rfl⟩
    rcases mem_decidedOf.mp least.member with ⟨chosen, _, _, rfl⟩
    rw [proofKey_complemented, proofKey_complemented, canonicalResult_canonicalResult,
      canonicalResult_canonicalResult]
    exact least.least _ inDecided

/-- What activations are combined to is the complement of what their complements are combined to with
the opposite states. -/
theorem Combines.complemented (combines : Combines deciding neutral xs out) :
    Combines (complementState deciding) (complementState neutral)
      (xs.map ActivationAlgebra.complemented) (ActivationAlgebra.complemented out) := by
  cases combines with
  | decided least =>
    rcases mem_decidedOf.mp least.member with ⟨operand, _, _, rfl⟩
    exact .decided least.complemented
  | undecided none =>
    have noOther : decidedOf (complementState deciding)
        (xs.map ActivationAlgebra.complemented) = [] := by
      refine List.eq_nil_iff_forall_not_mem.mpr fun result member => ?_
      rcases mem_decidedOf_complemented.mp member with ⟨other, inDecided, _⟩
      rw [none] at inDecided
      cases inDecided
    have combined : Combines (complementState deciding) (complementState neutral) _ _ :=
      .undecided noOther
    rw [allFacts_complemented, undecidedState_complemented] at combined
    unfold ActivationAlgebra.complemented
    rw [canonical_canonical]
    exact combined

/-! ## The laws -/

/-- The complement of a combination is the combination of the complements with the opposite states. -/
theorem complement_combine (operation dual : Text) (deciding neutral : ActivationState) :
    (combine operation deciding neutral xs >>= activationComplement) = .ok out ↔
      (xs.mapM activationComplement >>=
        combine dual (complementState deciding) (complementState neutral)) = .ok out := by
  have forward : ∀ result,
      (combine operation deciding neutral xs >>= activationComplement) = .ok result →
      (xs.mapM activationComplement >>=
        combine dual (complementState deciding) (complementState neutral)) = .ok result := by
    intro result ran
    rcases bind_eq_ok.mp ran with ⟨whole, combinedAll, complement⟩
    rcases combine_eq_ok combinedAll with ⟨admissible, combines⟩
    rcases activationComplement_eq_ok.mp complement with ⟨_, rfl⟩
    have others := (admissible_complemented admissible.each).mpr admissible
    rcases exists_combine dual (complementState deciding) (complementState neutral) others with
      ⟨dualResult, combinedOthers⟩
    have same := combines.complemented.unique (combine_eq_ok combinedOthers).2 others others
      fun _ => Iff.rfl
    rw [mapM_complement_eq_ok.mpr ⟨admissible.each, rfl⟩, ok_bind, combinedOthers, same]
  refine ⟨forward out, fun ran => ?_⟩
  rcases bind_eq_ok.mp ran with ⟨_, complements, combinedOthers⟩
  rcases mapM_complement_eq_ok.mp complements with ⟨each, rfl⟩
  have admissible := (admissible_complemented each).mp (combine_eq_ok combinedOthers).1
  rcases exists_combine operation deciding neutral admissible with ⟨whole, combinedAll⟩
  have ok : FactsOk whole.provenance := admissible.all.subset (combine_eq_ok combinedAll).2.subperm
  have ranAll : (combine operation deciding neutral xs >>= activationComplement) =
      .ok (complemented whole) := by
    rw [combinedAll, ok_bind]
    exact activationComplement_eq_ok.mpr ⟨ok, rfl⟩
  rw [ranAll, ← forward _ ranAll, ran]

/-- An activation is in its canonical form. -/
def Normal (operand : ActivationResult) : Prop := normalizeResult operand = .ok operand

theorem normal_of_combine (ran : combine operation deciding neutral xs = .ok out) : Normal out := by
  rcases combine_eq_ok ran with ⟨admissible, combines⟩
  have ok : FactsOk out.provenance := admissible.all.subset combines.subperm
  exact normalizeResult_eq_ok.mpr ⟨ok, combines.canonicalResult_eq.symm⟩

theorem normal_of_complement (ran : activationComplement operand = .ok out) : Normal out := by
  rcases activationComplement_eq_ok.mp ran with ⟨ok, rfl⟩
  exact normalizeResult_eq_ok.mpr ⟨factsOk_canonical ok, (canonicalResult_complemented operand).symm⟩

/-- On activations in their canonical form the complement is an involution. -/
theorem activationComplement_involutive (normal : Normal operand) :
    ∃ complement, activationComplement operand = .ok complement ∧ Normal complement ∧
      activationComplement complement = .ok operand := by
  have ran := activationComplement_eq_ok.mpr ⟨(normalizeResult_eq_ok.mp normal).1, rfl⟩
  exact ⟨_, ran, normal_of_complement ran, (activationComplement_twice ran).1.trans normal⟩

/-- The complement of a union is the intersection of the complements, or neither exists. A complement
of a complement is the activation in its canonical form, which all results of the algebra have. -/
theorem complement_union (xs : List ActivationResult) :
    (activationUnion xs >>= activationComplement).toOption =
      (xs.mapM activationComplement >>= activationIntersection).toOption ∧
    (∀ operand complement, activationComplement operand = .ok complement →
      activationComplement complement = normalizeResult operand ∧
        (Normal operand → activationComplement complement = .ok operand)) ∧
    ∀ operand, activationUnion xs = .ok operand ∨ activationIntersection xs = .ok operand ∨
      (∃ other, activationComplement other = .ok operand) → Normal operand := by
  refine ⟨toOption_eq fun out => complement_combine _ _ _ _, ?_, ?_⟩
  · intro operand complement ran
    have twice := (activationComplement_twice ran).1
    exact ⟨twice, fun normal => twice.trans normal⟩
  · rintro operand (union | intersection | ⟨other, complement⟩)
    · exact normal_of_combine union
    · exact normal_of_combine intersection
    · exact normal_of_complement complement

def reviewFact (state : ActivationState) (key : Text) : ActivationResult :=
  ⟨[⟨js "A reviewed file.", key, .callerFact, state⟩], state⟩

/-- Of an active and an indeterminate activation, the active one decides. -/
theorem complement_union_review :
    (activationUnion [reviewFact .indeterminate (js "a"), reviewFact .active (js "b")] >>=
      activationComplement).toOption = some ⟨(reviewFact .active (js "b")).provenance, .inactive⟩ ∧
    activationComplement ⟨(reviewFact .active (js "b")).provenance, .inactive⟩ =
      .ok (reviewFact .active (js "b")) := by
  have laws := complement_union [reviewFact .indeterminate (js "a"), reviewFact .active (js "b")]
  have complement : activationComplement (reviewFact .active (js "b")) =
      .ok ⟨(reviewFact .active (js "b")).provenance, .inactive⟩ := by decide +kernel
  have normal : Normal (reviewFact .active (js "b")) := by
    unfold Normal
    decide +kernel
  refine ⟨?_, (laws.2.1 _ _ complement).2 normal⟩
  rw [laws.1]
  decide +kernel

end AgentContextLint.ActivationAlgebra
