import AgentContextLint.Core.SourceCoordinates
import AgentContextLint.Resolver.ActivationAlgebra
import Mathlib.Algebra.Order.BigOperators.Group.List

/-!
# Laws of union and intersection

The union of activations does not depend on the order of its operands, and may be taken in parts;
so does the intersection (`activation_laws`).

* The canonical form of facts depends on their set only (`canonical_congr`).
* The text of a proof tells it apart from others (`provenance_of_proofKey`), so that the least
  proof of some results depends on their set only, whichever of them it comes from.
-/

namespace AgentContextLint.ActivationAlgebra

open Utf16 Utf8 Metered Sorting Netstring List

variable {code : ActivationAlgebraErrorCode}

/-! ## What is asked for -/

def TextOk (text : Text) : Prop :=
  text ≠ [] ∧ wellFormed text = true ∧ byteLength text ≤ maxTextBytes

/-- What is asked of facts, besides their number. -/
structure Readable (facts : List ActivationProvenance) : Prop where
  texts : ∀ fact ∈ facts, TextOk fact.key ∧ TextOk fact.description
  bytes : (facts.map textBytes).sum ≤ maxInputTextBytes
  consistent : ∀ first ∈ facts, ∀ second ∈ facts, first.key = second.key → first = second

structure FactsOk (facts : List ActivationProvenance) : Prop extends Readable facts where
  few : facts.length ≤ maxProvenanceFacts

def canonical (facts : List ActivationProvenance) : List ActivationProvenance :=
  sortBy compareFacts facts.eraseDups

/-! ## Facts -/

theorem failIf_eq_ok {condition : Prop} [Decidable condition]
    {message : Text} {out : Unit} : failIf condition code message = .ok out ↔ ¬ condition :=
  refuseIf_eq_ok

theorem assertText_eq_ok {value label : Text} :
    assertText value label code = .ok () ↔ TextOk value := by
  unfold assertText TextOk
  rw [check_bind_eq_ok, check_bind_eq_ok, failIf_eq_ok, failIf_eq_ok, failIf_eq_ok, Nat.not_lt,
    Bool.not_eq_false]

variable {facts front rest : List ActivationProvenance} {fact : ActivationProvenance} {label : Text}
  {part : List ActivationProvenance}

theorem Readable.subset (readable : Readable facts)
    (within : part.Subperm facts) : Readable part where
  texts := fun fact member => readable.texts fact (within.subset member)
  bytes := by
    rcases within with ⟨middle, perm, sub⟩
    have less := (sub.map textBytes).sum_le_sum fun _ _ => Nat.zero_le _
    rw [← (perm.map textBytes).sum_eq]
    exact less.trans readable.bytes
  consistent := fun first inFirst second inSecond =>
    readable.consistent first (within.subset inFirst) second (within.subset inSecond)

theorem FactsOk.subset (ok : FactsOk facts) (within : part.Subperm facts) : FactsOk part where
  toReadable := ok.toReadable.subset within
  few := within.length_le.trans ok.few

theorem readable_concat : Readable (front ++ [fact]) ↔ Readable front ∧
    TextOk fact.key ∧ TextOk fact.description ∧
    (front.map textBytes).sum + textBytes fact ≤ maxInputTextBytes ∧
    ∀ prior ∈ front, prior.key = fact.key → prior = fact := by
  have bytes : ((front ++ [fact]).map textBytes).sum = (front.map textBytes).sum + textBytes fact := by
    rw [map_append, sum_append, map_singleton, sum_singleton]
  constructor
  · intro whole
    have last : fact ∈ front ++ [fact] := mem_append_right front mem_cons_self
    refine ⟨whole.subset (sublist_append_left front [fact]).subperm, (whole.texts fact last).1,
      (whole.texts fact last).2, bytes ▸ whole.bytes, ?_⟩
    intro prior member
    exact whole.consistent prior (mem_append_left _ member) fact last
  · intro parts
    rcases parts with ⟨before, key, description, fits, consistent⟩
    constructor
    · intro other member
      rcases mem_append.mp member with old | new
      · exact before.texts other old
      · rw [mem_singleton.mp new]
        exact ⟨key, description⟩
    · rwa [bytes]
    · intro first inFirst second inSecond same
      rcases mem_append.mp inFirst with old | new
      · rcases mem_append.mp inSecond with alsoOld | alsoNew
        · exact before.consistent first old second alsoOld same
        · rw [mem_singleton.mp alsoNew] at same ⊢
          exact consistent first old same
      · rw [mem_singleton.mp new] at same ⊢
        rcases mem_append.mp inSecond with old | alsoNew
        · exact (consistent second old same.symm).symm
        · exact (mem_singleton.mp alsoNew).symm

def progressOf (facts : List ActivationProvenance) : FactProgress :=
  ⟨facts.eraseDups, (facts.map textBytes).sum⟩

theorem progressOf_concat_known (known : fact ∈ front) : progressOf (front ++ [fact]) =
      ⟨front.eraseDups, (front.map textBytes).sum + textBytes fact⟩ := by
  rw [progressOf, eraseDups_concat, if_pos known, map_append, sum_append,
    map_singleton, sum_singleton]

theorem progressOf_concat_new (new : fact ∉ front) : progressOf (front ++ [fact]) =
      ⟨front.eraseDups ++ [fact], (front.map textBytes).sum + textBytes fact⟩ := by
  rw [progressOf, eraseDups_concat, if_neg new, map_append, sum_append,
    map_singleton, sum_singleton]

theorem normalizeFact_eq_ok (readable : Readable front) (index : Nat) {next : FactProgress} :
    normalizeFact label (progressOf front) (fact, index) = .ok next ↔
      Readable (front ++ [fact]) ∧ next = progressOf (front ++ [fact]) := by
  rw [readable_concat]
  unfold normalizeFact
  rw [check_bind_eq_ok, check_bind_eq_ok, check_bind_eq_ok, assertText_eq_ok, assertText_eq_ok,
    failIf_eq_ok, Nat.not_lt]
  change TextOk fact.key ∧ TextOk fact.description ∧
    (front.map textBytes).sum + textBytes fact ≤ maxInputTextBytes ∧ _ ↔ _
  dsimp only [progressOf]
  cases found : front.eraseDups.find? (·.key = fact.key) with
  | none =>
    have fresh : ∀ prior ∈ front, prior.key ≠ fact.key := by
      intro prior member same
      have absent := find?_eq_none.mp found prior (mem_eraseDups.mpr member)
      exact absent (decide_eq_true same)
    have new : fact ∉ front := fun member => fresh fact member rfl
    have state := progressOf_concat_new new
    rw [progressOf] at state
    rw [state]
    constructor
    · intro parts
      exact ⟨⟨readable, parts.1, parts.2.1, parts.2.2.1,
        fun prior member same => absurd same (fresh prior member)⟩,
        (Except.ok.inj parts.2.2.2).symm⟩
    · intro parts
      exact ⟨parts.1.2.1, parts.1.2.2.1, parts.1.2.2.2.1, congrArg Except.ok parts.2.symm⟩
  | some prior =>
    have member : prior ∈ front := mem_eraseDups.mp (mem_of_find?_eq_some found)
    have sameKey : prior.key = fact.key := by simpa using find?_some found
    rw [check_bind_eq_ok, failIf_eq_ok]
    constructor
    · intro parts
      rcases parts with ⟨key, description, fits, agrees, result⟩
      simp only [ne_eq, not_or, not_not] at agrees
      have same : prior = fact := by
        cases prior
        cases fact
        simp only [ActivationProvenance.mk.injEq]
        exact ⟨agrees.2.2, sameKey, agrees.1, agrees.2.1⟩
      subst same
      have state := progressOf_concat_known member
      rw [progressOf] at state
      rw [state]
      refine ⟨⟨readable, key, description, fits, ?_⟩, (Except.ok.inj result).symm⟩
      exact fun other alsoMember => readable.consistent other alsoMember prior member
    · intro parts
      rcases parts with ⟨⟨_, key, description, fits, consistent⟩, result⟩
      have same := consistent prior member sameKey
      subst same
      have state := progressOf_concat_known member
      rw [progressOf] at state
      rw [state] at result
      refine ⟨key, description, fits, ?_, congrArg Except.ok result.symm⟩
      simp

theorem readable_nil : Readable [] where
  texts := forall_mem_nil _
  bytes := Nat.zero_le _
  consistent := forall_mem_nil _

/-- Facts are normalized exactly if they are in order. -/
theorem normalizeFacts_eq_ok {out : List ActivationProvenance} :
    normalizeFacts facts label = .ok out ↔ FactsOk facts ∧ out = canonical facts := by
  have loop := foldlM_eq_ok_iff (f := normalizeFact label)
    (fun read => Readable (read.map Prod.fst)) (fun read => progressOf (read.map Prod.fst))
    readable_nil
    (fun front rest whole => whole.subset
      ((sublist_append_left front rest).map Prod.fst).subperm)
    (fun front entry next readable => by
      rw [map_append, map_singleton]
      exact normalizeFact_eq_ok readable entry.2) facts.zipIdx
  rw [zipIdx_map_fst] at loop
  unfold normalizeFacts
  rw [check_bind_eq_ok, failIf_eq_ok, Nat.not_lt]
  constructor
  · intro ran
    rcases ran with ⟨few, ran⟩
    rcases bind_eq_ok.mp ran with ⟨progress, read, result⟩
    rcases (loop progress).mp read with ⟨readable, rfl⟩
    exact ⟨⟨readable, few⟩, (Except.ok.inj result).symm⟩
  · intro both
    rcases both with ⟨ok, rfl⟩
    exact ⟨ok.few, bind_eq_ok.mpr ⟨_, (loop _).mpr ⟨ok.toReadable, rfl⟩, rfl⟩⟩

/-! ## The canonical form -/

theorem kindText_injective : Function.Injective ActivationProvenanceKind.text := by
  intro first second same
  cases first <;> cases second <;> first | rfl | exact absurd same (by decide)

theorem stateText_injective : Function.Injective ActivationState.text := by
  intro first second same
  cases first <;> cases second <;> first | rfl | exact absurd same (by decide)

instance : Std.TransCmp compareFacts :=
  inferInstanceAs (Std.TransCmp (compareLex
    (comparingWith compareUnits fun fact : ActivationProvenance => fact.key)
    (compareLex (comparingWith compareUnits fun fact : ActivationProvenance => fact.kind.text)
      (compareLex
        (comparingWith compareUnits fun fact : ActivationProvenance => fact.observedState.text)
        (comparingWith compareUnits fun fact : ActivationProvenance => fact.description)))))

theorem eq_of_compareFacts {first second : ActivationProvenance}
    (same : compareFacts first second = .eq) : first = second := by
  unfold compareFacts at same
  rw [Ordering.then_eq_eq, Ordering.then_eq_eq, Ordering.then_eq_eq, compareUnits_eq_iff,
    compareUnits_eq_iff, compareUnits_eq_iff, compareUnits_eq_iff] at same
  rcases same with ⟨key, kind, state, description⟩
  cases first
  cases second
  simp only [ActivationProvenance.mk.injEq]
  exact ⟨description, key, kindText_injective kind, stateText_injective state⟩

theorem mem_canonical : fact ∈ canonical facts ↔ fact ∈ facts :=
  (mem_sortBy _).trans mem_eraseDups

theorem nodup_canonical : (canonical facts).Nodup := (nodup_sortBy _).mpr (nodup_eraseDups facts)

/-- The canonical form depends on the set of facts only. -/
theorem canonical_congr {others : List ActivationProvenance}
    (same : ∀ fact, fact ∈ facts ↔ fact ∈ others) : canonical facts = canonical others := by
  apply sortBy_eq_of_perm
  · exact fun first _ second _ => eq_of_compareFacts
  · refine (perm_ext_iff_of_nodup (nodup_eraseDups _) (nodup_eraseDups _)).mpr fun fact => ?_
    rw [mem_eraseDups, mem_eraseDups]
    exact same fact

theorem canonical_canonical : canonical (canonical facts) = canonical facts :=
  canonical_congr fun _ => mem_canonical

theorem canonical_subperm : (canonical facts).Subperm facts :=
  subperm_of_subset nodup_canonical fun _ => mem_canonical.mp

/-! ## Operands -/

def canonicalResult (operand : ActivationResult) : ActivationResult :=
  ⟨canonical operand.provenance, operand.state⟩

def allFacts (operands : List ActivationResult) : List ActivationProvenance :=
  mergeProofs (operands.map canonicalResult)

/-- The facts of some operands are not too many. -/
structure Fits (operands : List ActivationResult) : Prop where
  each : ∀ operand ∈ operands, FactsOk operand.provenance
  few : (allFacts operands).length ≤ maxProvenanceFacts
  bytes : ((allFacts operands).map textBytes).sum ≤ maxInputTextBytes

/-- What is asked of operands. -/
structure Admissible (operands : List ActivationResult) : Prop where
  few : operands.length ≤ maxOperands
  each : ∀ operand ∈ operands, FactsOk operand.provenance
  all : FactsOk (allFacts operands)

variable {operands xs ys : List ActivationResult} {operand : ActivationResult} {operation : Text}
  {results others : List ActivationResult}
  {result : ActivationResult} {first second : ActivationResult}

theorem allFacts_append : allFacts (xs ++ ys) = allFacts xs ++ allFacts ys := by
  unfold allFacts mergeProofs
  rw [map_append, flatMap_append]

theorem allFacts_singleton : allFacts [operand] = canonical operand.provenance :=
  append_nil _

theorem mem_allFacts {fact : ActivationProvenance} :
    fact ∈ allFacts operands ↔ ∃ operand ∈ operands, fact ∈ operand.provenance := by
  unfold allFacts mergeProofs
  rw [flatMap_map, mem_flatMap]
  exact exists_congr fun operand => and_congr_right fun _ => mem_canonical

theorem makeResult_eq_ok {state : ActivationState} {out : ActivationResult} :
    makeResult state facts = .ok out ↔ FactsOk facts ∧ out = ⟨canonical facts, state⟩ := by
  unfold makeResult
  rw [bind_eq_ok]
  constructor
  · intro ran
    rcases ran with ⟨normal, normalized, result⟩
    rcases normalizeFacts_eq_ok.mp normalized with ⟨ok, rfl⟩
    exact ⟨ok, (Except.ok.inj result).symm⟩
  · intro both
    rcases both with ⟨ok, rfl⟩
    exact ⟨_, normalizeFacts_eq_ok.mpr ⟨ok, rfl⟩, rfl⟩

def operandProgress (operands : List ActivationResult) : OperandProgress :=
  ⟨allFacts operands, operands.map canonicalResult, ((allFacts operands).map textBytes).sum⟩

theorem Fits.left (fits : Fits (xs ++ ys)) : Fits xs where
  each := fun operand member => fits.each operand (mem_append_left _ member)
  few := by
    have few := fits.few
    rw [allFacts_append, length_append] at few
    omega
  bytes := by
    have bytes := fits.bytes
    rw [allFacts_append, map_append, sum_append] at bytes
    omega

theorem normalizeOperand_eq_ok (fits : Fits xs) {next : OperandProgress} :
    normalizeOperand operation (operandProgress xs) operand = .ok next ↔
      Fits (xs ++ [operand]) ∧ next = operandProgress (xs ++ [operand]) := by
  have state : operandProgress (xs ++ [operand]) = ⟨allFacts xs ++ canonical operand.provenance,
        xs.map canonicalResult ++ [canonicalResult operand],
        ((allFacts xs).map textBytes).sum + ((canonical operand.provenance).map textBytes).sum⟩ := by
    rw [operandProgress, allFacts_append, allFacts_singleton, map_append, map_append,
      sum_append, map_singleton]
  rw [state]
  unfold normalizeOperand normalizeResult
  rw [bind_eq_ok]
  constructor
  · intro ran
    rcases ran with ⟨result, made, ran⟩
    rcases makeResult_eq_ok.mp made with ⟨ok, rfl⟩
    rcases check_bind_eq_ok.mp ran with ⟨few, ran⟩
    rcases check_bind_eq_ok.mp ran with ⟨bytes, ran⟩
    cases ran
    rw [failIf_eq_ok, Nat.not_lt] at few bytes
    refine ⟨⟨?_, ?_, ?_⟩, rfl⟩
    · intro other member
      rcases mem_append.mp member with old | new
      · exact fits.each other old
      · rw [mem_singleton.mp new]
        exact ok
    · rw [allFacts_append, allFacts_singleton, length_append]
      exact few
    · rw [allFacts_append, allFacts_singleton, map_append, sum_append]
      exact bytes
  · intro both
    rcases both with ⟨whole, rfl⟩
    have few := whole.few
    have bytes := whole.bytes
    rw [allFacts_append, allFacts_singleton] at few bytes
    rw [length_append] at few
    rw [map_append, sum_append] at bytes
    have ok := whole.each operand (mem_append_right xs mem_cons_self)
    refine ⟨_, makeResult_eq_ok.mpr ⟨ok, rfl⟩, ?_⟩
    refine check_bind_eq_ok.mpr ⟨failIf_eq_ok.mpr (Nat.not_lt.mpr few), ?_⟩
    exact check_bind_eq_ok.mpr ⟨failIf_eq_ok.mpr (Nat.not_lt.mpr bytes), rfl⟩

theorem fits_nil : Fits [] where
  each := forall_mem_nil _
  few := Nat.zero_le _
  bytes := Nat.zero_le _

theorem normalizeOperands_eq_ok {out : List ActivationResult} :
    normalizeOperands operands operation = .ok out ↔
      Admissible operands ∧ out = operands.map canonicalResult := by
  have loop := foldlM_eq_ok_iff (f := normalizeOperand operation) Fits operandProgress fits_nil
    (fun _ _ fits => fits.left) (fun _ _ _ fits => normalizeOperand_eq_ok fits) operands
  unfold normalizeOperands
  rw [check_bind_eq_ok, failIf_eq_ok, Nat.not_lt]
  constructor
  · intro ran
    rcases ran with ⟨few, ran⟩
    rcases bind_eq_ok.mp ran with ⟨progress, read, ran⟩
    rcases (loop progress).mp read with ⟨fits, rfl⟩
    rcases bind_eq_ok.mp ran with ⟨_, normalized, result⟩
    exact ⟨⟨few, fits.each, (normalizeFacts_eq_ok.mp normalized).1⟩, (Except.ok.inj result).symm⟩
  · intro both
    rcases both with ⟨admissible, rfl⟩
    have fits : Fits operands := ⟨admissible.each, admissible.all.few, admissible.all.bytes⟩
    exact ⟨admissible.few, bind_eq_ok.mpr ⟨_, (loop _).mpr ⟨fits, rfl⟩,
      bind_eq_ok.mpr ⟨_, normalizeFacts_eq_ok.mpr ⟨admissible.all, rfl⟩, rfl⟩⟩⟩

/-! ## The text of a proof -/

theorem wellFormed_decimalText (n : Nat) : wellFormed (decimalText n) = true := by
  have plain : ∀ d < 10, isSurrogate (.ofNat (0x30 + d)) = false := by decide
  apply wellFormed_of_plain
  intro u member
  rcases mem_map.mp member with ⟨d, isDigit, rfl⟩
  exact plain d (digits_lt d isDigit)

/-- The bytes of the prefixed texts are frames. -/
theorem encode_lengthPrefixed {parts : List Text} (ok : ∀ part ∈ parts, wellFormed part = true) :
    encode (lengthPrefixed parts) = (parts.map encode).flatMap frame ∧
      wellFormed (lengthPrefixed parts) = true := by
  induction parts with
  | nil => exact ⟨rfl, rfl⟩
  | cons part rest ih =>
    rcases ih fun other member => ok other (mem_cons_of_mem part member) with ⟨bytes, later⟩
    have here := ok part mem_cons_self
    have number := wellFormed_decimalText (byteLength part)
    have colon : wellFormed (js ":") = true := by decide
    have front : wellFormed (decimalText (byteLength part) ++ js ":") = true :=
      SourceCoordinates.wellFormed_append number colon
    have whole : wellFormed (decimalText (byteLength part) ++ js ":" ++ part) = true :=
      SourceCoordinates.wellFormed_append front here
    have split : lengthPrefixed (part :: rest) =
        decimalText (byteLength part) ++ js ":" ++ part ++ lengthPrefixed rest := rfl
    constructor
    · rw [split, encode_append whole, encode_append front, encode_append number,
        encode_decimalText, bytes, map_cons, flatMap_cons, frame]
      have colonBytes : encode (js ":") = [0x3a] := by decide
      rw [colonBytes, append_assoc (decimal _), singleton_append]
      rfl
    · rw [split]
      exact SourceCoordinates.wellFormed_append whole later

theorem lengthPrefixed_injective {first second : List Text}
    (left : ∀ part ∈ first, wellFormed part = true)
    (right : ∀ part ∈ second, wellFormed part = true)
    (same : lengthPrefixed first = lengthPrefixed second) : first = second := by
  have frames := congrArg encode same
  rw [(encode_lengthPrefixed left).1, (encode_lengthPrefixed right).1] at frames
  have bytes := flatMap_frame_injective frames
  have apart : ∀ part ∈ first, ∀ other ∈ second, encode part = encode other → part = other :=
    fun part inFirst other inSecond => encode_injective (left part inFirst) (right other inSecond)
  clear frames same left right
  induction first generalizing second with
  | nil =>
    rw [map_nil] at bytes
    exact (map_eq_nil_iff.mp bytes.symm).symm
  | cons part rest ih =>
    cases second with
    | nil => cases bytes
    | cons other others =>
      rw [map_cons, map_cons] at bytes
      rcases cons.inj bytes with ⟨head, tail⟩
      rw [apart part mem_cons_self other mem_cons_self head,
        ih tail fun p inRest o inOthers => apart p (mem_cons_of_mem _ inRest) o
          (mem_cons_of_mem _ inOthers)]

theorem flatMap_factParts_injective {first second : List ActivationProvenance}
    (same : first.flatMap factParts = second.flatMap factParts) : first = second := by
  induction first generalizing second with
  | nil =>
    cases second with
    | nil => rfl
    | cons fact rest => cases same
  | cons fact rest ih =>
    cases second with
    | nil => cases same
    | cons other others =>
      rw [flatMap_cons, flatMap_cons] at same
      rcases append_inj same rfl with ⟨head, tail⟩
      simp only [factParts, cons.injEq, and_true] at head
      rcases head with ⟨key, kind, state, description⟩
      have facts : fact = other := by
        cases fact
        cases other
        simp only [ActivationProvenance.mk.injEq]
        exact ⟨description, key, kindText_injective kind, stateText_injective state⟩
      rw [facts, ih tail]

theorem proofKey_eq (result : ActivationResult) :
    proofKey result = lengthPrefixed (result.provenance.flatMap factParts) := by
  unfold proofKey lengthPrefixed
  rw [flatMap_assoc]

theorem wellFormed_factParts (texts : ∀ fact ∈ facts, TextOk fact.key ∧ TextOk fact.description) :
    ∀ part ∈ facts.flatMap factParts, wellFormed part = true := by
  have kinds : ∀ kind : ActivationProvenanceKind, wellFormed kind.text = true := by
    intro kind
    cases kind <;> decide
  have states : ∀ state : ActivationState, wellFormed state.text = true := by
    intro state
    cases state <;> decide
  intro part member
  rcases mem_flatMap.mp member with ⟨fact, inFacts, isPart⟩
  have ok := texts fact inFacts
  simp only [factParts, mem_cons, not_mem_nil, or_false] at isPart
  rcases isPart with rfl | rfl | rfl | rfl
  · exact ok.1.2.1
  · exact kinds _
  · exact states _
  · exact ok.2.2.1

/-- A result whose facts have well-formed texts. -/
def TextsOk (result : ActivationResult) : Prop :=
  ∀ fact ∈ result.provenance, TextOk fact.key ∧ TextOk fact.description

theorem provenance_of_proofKey (left : TextsOk first) (right : TextsOk second)
    (same : proofKey first = proofKey second) : first.provenance = second.provenance := by
  rw [proofKey_eq, proofKey_eq] at same
  exact flatMap_factParts_injective
    (lengthPrefixed_injective (wellFormed_factParts left) (wellFormed_factParts right) same)

/-! ## The least proof -/

/-- The result is one of some, and none of them has a lesser text. -/
structure IsLeast (results : List ActivationResult) (result : ActivationResult) : Prop where
  member : result ∈ results
  least : ∀ other ∈ results, ¬ proofKey other < proofKey result

theorem isLeast_leastProof (first : ActivationResult) (rest : List ActivationResult) :
    IsLeast (first :: rest) (leastProof first rest) := by
  induction rest generalizing first with
  | nil =>
    refine ⟨mem_cons_self, fun other member => ?_⟩
    rw [mem_singleton.mp member]
    exact List.lt_irrefl _
  | cons candidate rest ih =>
    rw [leastProof, foldl_cons]
    split_ifs with lower
    · have later := ih candidate
      refine ⟨mem_cons_of_mem first later.member, fun other member => ?_⟩
      rcases mem_cons.mp member with rfl | behind
      · intro less
        exact later.least candidate mem_cons_self (List.lt_trans lower less)
      · exact later.least other behind
    · have later := ih first
      constructor
      · rcases mem_cons.mp later.member with here | behind
        · change leastProof first rest ∈ _
          rw [here]
          exact mem_cons_self
        · exact mem_cons_of_mem first (mem_cons_of_mem candidate behind)
      · intro other member
        rcases mem_cons.mp member with rfl | behind
        · exact later.least other mem_cons_self
        · rcases mem_cons.mp behind with rfl | further
          · intro less
            rcases lt_trichotomy (proofKey other) (proofKey first) with below | same | above
            · exact lower below
            · exact later.least first mem_cons_self (same ▸ less)
            · exact later.least first mem_cons_self (List.lt_trans above less)
          · exact later.least other (mem_cons_of_mem first further)

theorem IsLeast.provenance_eq (left : IsLeast results first)
    (right : IsLeast others second) (here : second ∈ results) (there : first ∈ others)
    (leftOk : TextsOk first) (rightOk : TextsOk second) : first.provenance = second.provenance := by
  apply provenance_of_proofKey leftOk rightOk
  rcases lt_trichotomy (proofKey first) (proofKey second) with below | same | above
  · exact absurd below (right.least first there)
  · exact same
  · exact absurd above (left.least second here)

theorem IsLeast.congr (least : IsLeast results result)
    (same : ∀ other, other ∈ results ↔ other ∈ others) : IsLeast others result where
  member := (same result).mp least.member
  least := fun other member => least.least other ((same other).mpr member)

/-- A least result stays least beside others whose least one has no lesser text. -/
theorem IsLeast.append (least : IsLeast results result)
    (beside : ∀ other, IsLeast others other → ¬ proofKey other < proofKey result) :
    IsLeast (results ++ others) result where
  member := mem_append_left _ least.member
  least := by
    intro other member less
    rcases mem_append.mp member with here | there
    · exact least.least other here less
    · cases others with
      | nil => cases there
      | cons first rest =>
        have other_ := isLeast_leastProof first rest
        rcases lt_trichotomy (proofKey (leastProof first rest)) (proofKey result) with
          below | same | above
        · exact beside _ other_ below
        · exact other_.least other there (same ▸ less)
        · exact other_.least other there (List.lt_trans less above)

/-! ## The combination -/

variable {deciding neutral : ActivationState} {out : ActivationResult}
  {a b : ActivationResult} {result : ActivationResult}

/-- The operands that decide, in canonical form. -/
def decidedOf (deciding : ActivationState) (operands : List ActivationResult) :
    List ActivationResult := (operands.map canonicalResult).filter (·.state = deciding)

def undecidedState (neutral : ActivationState) (operands : List ActivationResult) :
    ActivationState :=
  if ∃ operand ∈ operands, operand.state = .indeterminate then .indeterminate else neutral

/-- What some operands are combined to. -/
inductive Combines (deciding neutral : ActivationState) (operands : List ActivationResult) :
    ActivationResult → Prop
  | decided {proof : ActivationResult} (least : IsLeast (decidedOf deciding operands) proof) :
      Combines deciding neutral operands ⟨proof.provenance, deciding⟩
  | undecided (none : decidedOf deciding operands = []) :
      Combines deciding neutral operands
        ⟨canonical (allFacts operands), undecidedState neutral operands⟩

theorem mem_decidedOf : result ∈ decidedOf deciding operands ↔
    ∃ operand ∈ operands, operand.state = deciding ∧ canonicalResult operand = result := by
  unfold decidedOf
  rw [mem_filter, mem_map, decide_eq_true_iff]
  constructor
  · intro both
    rcases both with ⟨⟨operand, member, rfl⟩, state⟩
    exact ⟨operand, member, state, rfl⟩
  · intro found
    rcases found with ⟨operand, member, state, rfl⟩
    exact ⟨⟨operand, member, rfl⟩, state⟩

theorem decidedOf_append : decidedOf deciding (xs ++ ys) =
    decidedOf deciding xs ++ decidedOf deciding ys := by
  unfold decidedOf
  rw [map_append, filter_append]

theorem factsOk_canonical (ok : FactsOk facts) : FactsOk (canonical facts) :=
  ok.subset canonical_subperm

theorem Admissible.textsOk (admissible : Admissible operands)
    (member : result ∈ decidedOf deciding operands) : TextsOk result := by
  rcases mem_decidedOf.mp member with ⟨operand, inOperands, _, rfl⟩
  exact (factsOk_canonical (admissible.each operand inOperands)).texts

theorem undecidedState_map (operands : List ActivationResult) :
    (if ∃ operand ∈ operands.map canonicalResult, operand.state = .indeterminate
      then .indeterminate else neutral) = undecidedState neutral operands := by
  unfold undecidedState
  have same : (∃ operand ∈ operands.map canonicalResult, operand.state = .indeterminate) ↔
      ∃ operand ∈ operands, operand.state = .indeterminate := by
    constructor
    · intro found
      rcases found with ⟨_, member, state⟩
      rcases mem_map.mp member with ⟨operand, inOperands, rfl⟩
      exact ⟨operand, inOperands, state⟩
    · intro found
      rcases found with ⟨operand, member, state⟩
      exact ⟨_, mem_map_of_mem member, state⟩
  by_cases holds : ∃ operand ∈ operands, operand.state = .indeterminate
  · rw [if_pos holds, if_pos (same.mpr holds)]
  · rw [if_neg holds, if_neg fun other => holds (same.mp other)]

theorem factsOk_nil : FactsOk [] where
  toReadable := readable_nil
  few := Nat.zero_le _

theorem exists_combined (deciding neutral : ActivationState) (admissible : Admissible operands) : ∃ out,
    combined deciding neutral (operands.map canonicalResult) = .ok out ∧
      Combines deciding neutral operands out := by
  unfold combined
  by_cases empty : operands.map canonicalResult = []
  · have none : operands = [] := map_eq_nil_iff.mp empty
    subst none
    exact ⟨_, makeResult_eq_ok.mpr ⟨factsOk_nil, rfl⟩, Combines.undecided rfl⟩
  · rw [if_neg empty]
    have decidedList : (operands.map canonicalResult).filter (·.state = deciding) =
        decidedOf deciding operands := rfl
    rw [decidedList]
    cases decides : decidedOf deciding operands with
    | nil =>
      dsimp only
      rw [undecidedState_map]
      exact ⟨_, makeResult_eq_ok.mpr ⟨admissible.all, rfl⟩, Combines.undecided decides⟩
    | cons first rest =>
      have least := isLeast_leastProof first rest
      rw [← decides] at least
      rcases mem_decidedOf.mp least.member with ⟨operand, inOperands, _, proof⟩
      have same : canonical (leastProof first rest).provenance =
          (leastProof first rest).provenance := by
        rw [← proof]
        exact canonical_canonical
      have ok : FactsOk (leastProof first rest).provenance := by
        rw [← proof]
        exact factsOk_canonical (admissible.each operand inOperands)
      dsimp only
      refine ⟨_, makeResult_eq_ok.mpr ⟨ok, rfl⟩, ?_⟩
      rw [same]
      exact Combines.decided least

/-- Which operands have a union, and which one: `outcome`. -/
theorem combine_eq_ok (ran : combine operation deciding neutral operands = .ok out) :
    Admissible operands ∧ Combines deciding neutral operands out := by
  unfold combine at ran
  rcases bind_eq_ok.mp ran with ⟨normalized, normalizes, ran⟩
  rcases normalizeOperands_eq_ok.mp normalizes with ⟨admissible, rfl⟩
  rcases exists_combined deciding neutral admissible with
    ⟨other, same, combines⟩
  rw [same] at ran
  cases ran
  exact ⟨admissible, combines⟩

theorem exists_combine (operation : Text) (deciding neutral : ActivationState)
    (admissible : Admissible operands) :
    ∃ out, combine operation deciding neutral operands = .ok out := by
  unfold combine
  rcases exists_combined deciding neutral admissible with ⟨out, same, _⟩
  exact ⟨out, bind_eq_ok.mpr ⟨_, normalizeOperands_eq_ok.mpr ⟨admissible, rfl⟩, same⟩⟩

/-- What operands are combined to depends on their set only. -/
theorem Combines.unique {other : ActivationResult} (left : Combines deciding neutral xs out)
    (right : Combines deciding neutral ys other) (leftOk : Admissible xs) (rightOk : Admissible ys)
    (same : ∀ operand, operand ∈ xs ↔ operand ∈ ys) : out = other := by
  have sameDecided : ∀ result, result ∈ decidedOf deciding xs ↔ result ∈ decidedOf deciding ys := by
    intro result
    rw [mem_decidedOf, mem_decidedOf]
    exact exists_congr fun operand => and_congr_left fun _ => same operand
  cases left with
  | decided least =>
    cases right with
    | decided least' =>
      rw [least.provenance_eq least' ((sameDecided _).mpr least'.member)
        ((sameDecided _).mp least.member) (leftOk.textsOk least.member)
        (rightOk.textsOk least'.member)]
    | undecided none =>
      have member := (sameDecided _).mp least.member
      rw [none] at member
      cases member
  | undecided none =>
    cases right with
    | decided least =>
      have member := (sameDecided _).mpr least.member
      rw [none] at member
      cases member
    | undecided _ =>
      have facts : canonical (allFacts xs) = canonical (allFacts ys) := by
        apply canonical_congr
        intro fact
        rw [mem_allFacts, mem_allFacts]
        exact exists_congr fun operand => and_congr_left fun _ => same operand
      have states : (∃ operand ∈ xs, operand.state = .indeterminate) ↔
          ∃ operand ∈ ys, operand.state = .indeterminate :=
        exists_congr fun operand => and_congr_left fun _ => same operand
      rw [facts, undecidedState, undecidedState, if_congr states rfl rfl]

theorem Admissible.perm (admissible : Admissible xs) (perm : xs.Perm ys) : Admissible ys where
  few := perm.length_eq ▸ admissible.few
  each := fun operand member => admissible.each operand (perm.mem_iff.mpr member)
  all := admissible.all.subset ((perm.map canonicalResult).flatMap_right _).symm.subperm

/-! ## Parts -/

theorem Admissible.left (admissible : Admissible (xs ++ ys)) : Admissible xs where
  few := by
    have few := admissible.few
    rw [length_append] at few
    omega
  each := fun operand member => admissible.each operand (mem_append_left _ member)
  all := by
    have all := admissible.all
    rw [allFacts_append] at all
    exact all.subset (sublist_append_left _ _).subperm

theorem Admissible.right (admissible : Admissible (xs ++ ys)) : Admissible ys :=
  (admissible.perm perm_append_comm).left

theorem Combines.canonicalResult_eq (combines : Combines deciding neutral operands out) :
    canonicalResult out = out := by
  cases combines with
  | decided least =>
    rcases mem_decidedOf.mp least.member with ⟨operand, _, _, rfl⟩
    exact congrArg (ActivationResult.mk · deciding) canonical_canonical
  | undecided none => exact congrArg (ActivationResult.mk · _) canonical_canonical

/-- The facts of a combination are some of those of its operands. -/
theorem Combines.subperm (combines : Combines deciding neutral operands out) :
    out.provenance.Subperm (allFacts operands) := by
  cases combines with
  | decided least =>
    rcases mem_decidedOf.mp least.member with ⟨operand, member, _, rfl⟩
    apply subperm_of_subset nodup_canonical
    intro fact inFacts
    exact mem_allFacts.mpr ⟨operand, member, mem_canonical.mp inFacts⟩
  | undecided none => exact canonical_subperm

/-- A combination decides exactly if one of its operands does. -/
theorem Combines.state_eq_iff (apart : deciding ≠ neutral) (definite : deciding ≠ .indeterminate)
    (combines : Combines deciding neutral operands out) :
    out.state = deciding ↔ decidedOf deciding operands ≠ [] := by
  cases combines with
  | decided least => exact ⟨fun _ => ne_nil_of_mem least.member, fun _ => rfl⟩
  | undecided none =>
    refine ⟨fun same => ?_, fun some => absurd none some⟩
    change undecidedState neutral operands = deciding at same
    unfold undecidedState at same
    split_ifs at same
    · exact absurd same.symm definite
    · exact absurd same.symm apart

/-- The least proof of the deciding operands is that of their combination. -/
theorem Combines.proofKey_eq (combines : Combines deciding neutral operands out)
    (admissible : Admissible operands) {proof : ActivationResult}
    (least : IsLeast (decidedOf deciding operands) proof) : proofKey out = proofKey proof := by
  cases combines with
  | decided own =>
    have same := own.provenance_eq least least.member own.member
      (admissible.textsOk own.member) (admissible.textsOk least.member)
    unfold proofKey
    rw [same]
  | undecided none =>
    have member := least.member
    rw [none] at member
    cases member

theorem decidedOf_pair (deciding : ActivationState) (left : canonicalResult a = a)
    (right : canonicalResult b = b) :
    decidedOf deciding [a, b] = [a, b].filter (·.state = deciding) := by
  rw [decidedOf, map_cons, map_singleton, left, right]

theorem allFacts_pair (left : canonicalResult a = a)
    (right : canonicalResult b = b) : allFacts [a, b] = a.provenance ++ b.provenance := by
  rw [allFacts, map_cons, map_singleton, left, right, mergeProofs, flatMap_cons, flatMap_singleton]

section Pair

variable {a b : ActivationResult} (apart : deciding ≠ neutral)
  (definite : deciding ≠ .indeterminate)

include apart definite in
/-- A side that decides, with a proof that is not greater than the one of the other side. -/
theorem Combines.decided_side (first : Combines deciding neutral xs a)
    (second : Combines deciding neutral ys b) (secondOk : Admissible ys) (decides : a.state = deciding)
    (least : b.state = deciding → ¬ proofKey b < proofKey a) :
    ∃ proof, IsLeast (decidedOf deciding xs ++ decidedOf deciding ys) proof ∧
      proof.provenance = a.provenance := by
  cases first with
  | decided own =>
    refine ⟨_, own.append fun other otherLeast => ?_, rfl⟩
    have decidesToo := (second.state_eq_iff apart definite).mpr
      (ne_nil_of_mem otherLeast.member)
    have notLess := least decidesToo
    rw [second.proofKey_eq secondOk otherLeast] at notLess
    exact notLess
  | undecided none =>
    exact absurd none (((Combines.undecided none).state_eq_iff apart definite).mp decides)

include apart definite in
/-- The combination of two combinations combines all their operands. -/
theorem Combines.flatten (neutralDefinite : neutral ≠ .indeterminate)
    (first : Combines deciding neutral xs a) (second : Combines deciding neutral ys b)
    (firstOk : Admissible xs) (secondOk : Admissible ys)
    (both : Combines deciding neutral [a, b] out) : Combines deciding neutral (xs ++ ys) out := by
  have pair := decidedOf_pair deciding first.canonicalResult_eq
    second.canonicalResult_eq
  have inPair {result : ActivationResult} : result ∈ decidedOf deciding [a, b] ↔
      (result = a ∨ result = b) ∧ result.state = deciding := by
    rw [pair, mem_filter, mem_pair, decide_eq_true_iff]
  cases both with
  | decided least =>
    rcases inPair.mp least.member with ⟨side, decides⟩
    rcases side with rfl | rfl
    · rcases first.decided_side apart definite second secondOk decides
        (fun other => least.least b (inPair.mpr ⟨Or.inr rfl, other⟩)) with ⟨proof, whole, same⟩
      rw [← same]
      exact Combines.decided (decidedOf_append ▸ whole)
    · rcases second.decided_side apart definite first firstOk decides
        (fun other => least.least a (inPair.mpr ⟨Or.inl rfl, other⟩)) with ⟨proof, whole, same⟩
      rw [← same]
      refine Combines.decided (whole.congr fun other => ?_)
      rw [decidedOf_append, mem_append, mem_append, or_comm]
  | undecided none =>
    have firstOpen : a.state ≠ deciding := by
      intro decides
      have member := inPair.mpr ⟨Or.inl rfl, decides⟩
      rw [none] at member
      cases member
    have secondOpen : b.state ≠ deciding := by
      intro decides
      have member := inPair.mpr ⟨Or.inr rfl, decides⟩
      rw [none] at member
      cases member
    have noFirst : decidedOf deciding xs = [] := by
      by_contra some
      exact firstOpen ((first.state_eq_iff apart definite).mpr some)
    have noSecond : decidedOf deciding ys = [] := by
      by_contra some
      exact secondOpen ((second.state_eq_iff apart definite).mpr some)
    have facts : canonical (allFacts [a, b]) = canonical (allFacts (xs ++ ys)) := by
      rw [allFacts_pair first.canonicalResult_eq second.canonicalResult_eq, allFacts_append]
      cases first with
      | decided least => exact absurd rfl firstOpen
      | undecided _ =>
        cases second with
        | decided least => exact absurd rfl secondOpen
        | undecided _ =>
          apply canonical_congr
          intro fact
          rw [mem_append, mem_append, mem_canonical, mem_canonical]
    have indeterminate_iff {operands : List ActivationResult} {result : ActivationResult}
        (combines : Combines deciding neutral operands result) (notDecided : result.state ≠ deciding) :
        result.state = .indeterminate ↔ ∃ operand ∈ operands, operand.state = .indeterminate := by
      cases combines with
      | decided least => exact absurd rfl notDecided
      | undecided _ =>
        change undecidedState neutral operands = _ ↔ _
        unfold undecidedState
        split_ifs with holds
        · exact ⟨fun _ => holds, fun _ => rfl⟩
        · exact ⟨fun same => absurd same neutralDefinite, fun other => absurd other holds⟩
    have states : undecidedState neutral [a, b] = undecidedState neutral (xs ++ ys) := by
      have same : (∃ operand ∈ [a, b], operand.state = .indeterminate) ↔
          ∃ operand ∈ xs ++ ys, operand.state = .indeterminate := by
        have left := indeterminate_iff first firstOpen
        have right := indeterminate_iff second secondOpen
        simp only [mem_cons, not_mem_nil, or_false, exists_eq_left,
          mem_append, or_and_right, exists_or]
        rw [left, right]
      rw [undecidedState, undecidedState, if_congr same rfl rfl]
    rw [facts, states]
    apply Combines.undecided
    rw [decidedOf_append, noFirst, noSecond]
    rfl

end Pair

theorem admissible_pair {a b : ActivationResult} (first : Combines deciding neutral xs a)
    (second : Combines deciding neutral ys b) (admissible : Admissible (xs ++ ys)) :
    Admissible [a, b] where
  few := Nat.le_of_ble_eq_true rfl
  each := by
    have whole := admissible.all
    rw [allFacts_append] at whole
    intro operand member
    rcases mem_pair.mp member with rfl | rfl
    · exact whole.subset (first.subperm.trans (sublist_append_left _ _).subperm)
    · exact whole.subset (second.subperm.trans (sublist_append_right _ _).subperm)
  all := by
    have whole := admissible.all
    rw [allFacts_append] at whole
    rw [allFacts_pair first.canonicalResult_eq second.canonicalResult_eq]
    exact whole.subset (first.subperm.append second.subperm)

/-! ## The laws -/

/-- An operation on lists of activations does not depend on their order, and may be done in
parts. -/
structure Laws (operate : List ActivationResult → Except ActivationAlgebraError ActivationResult) :
    Prop where
  permute : ∀ xs ys : List ActivationResult, xs.Perm ys → ∀ out,
    operate xs = .ok out ↔ operate ys = .ok out
  flatten : ∀ xs ys out, operate (xs ++ ys) = .ok out →
    ∃ a b, operate xs = .ok a ∧ operate ys = .ok b ∧ operate [a, b] = .ok out

theorem laws_combine (operation : Text) (apart : deciding ≠ neutral)
    (definite : deciding ≠ .indeterminate) (neutralDefinite : neutral ≠ .indeterminate) :
    Laws (combine operation deciding neutral) := by
  have permuted (xs ys : List ActivationResult) (perm : xs.Perm ys) (out : ActivationResult)
      (ran : combine operation deciding neutral xs = .ok out) :
      combine operation deciding neutral ys = .ok out := by
    rcases combine_eq_ok ran with ⟨admissible, combines⟩
    rcases exists_combine operation deciding neutral
      (admissible.perm perm) with ⟨other, alsoRan⟩
    rcases combine_eq_ok alsoRan with ⟨alsoAdmissible, alsoCombines⟩
    rw [combines.unique alsoCombines admissible alsoAdmissible fun _ => perm.mem_iff]
    exact alsoRan
  constructor
  · exact fun xs ys perm out => ⟨permuted xs ys perm out, permuted ys xs perm.symm out⟩
  · intro xs ys out ran
    rcases combine_eq_ok ran with ⟨admissible, combines⟩
    rcases exists_combine operation deciding neutral
      admissible.left with ⟨a, first⟩
    rcases exists_combine operation deciding neutral
      admissible.right with ⟨b, second⟩
    have firstFacts := combine_eq_ok first
    have secondFacts := combine_eq_ok second
    rcases exists_combine operation deciding neutral
      (admissible_pair firstFacts.2 secondFacts.2 admissible) with ⟨nested, both⟩
    have whole := firstFacts.2.flatten apart definite neutralDefinite secondFacts.2 firstFacts.1
      secondFacts.1 (combine_eq_ok both).2
    refine ⟨a, b, first, second, ?_⟩
    rw [combines.unique whole admissible admissible fun _ => Iff.rfl]
    exact both

/-- Union and intersection do not depend on the order of their operands, and may be taken in
parts. -/
theorem activation_laws : Laws activationUnion ∧ Laws activationIntersection :=
  ⟨laws_combine _ (by decide) (by decide) (by decide),
    laws_combine _ (by decide) (by decide) (by decide)⟩

end AgentContextLint.ActivationAlgebra
