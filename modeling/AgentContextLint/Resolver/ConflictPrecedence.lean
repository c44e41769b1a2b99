import AgentContextLint.Resolver.TopologicalSequences
import AgentContextLint.Resolver.CrossProfileExactness

/-!
# The precedence of conflicts

For which resolutions the conflict between two documents is reported without an order exactly if
the precedence relation does not order them.

`conflictPrecedence` looks for an edge between the two. For Claude files the edges are transitive
(`isBefore_trans`), and for Codex files no edge is looked for; but of Gemini files each is only
joined to the one loaded before it, so with three of them the first and the last are found without
an order (`precedenceReported_iff`).
-/

namespace AgentContextLint

open Utf16 Utf8 Metered Sorting Arcs List
open CrossProfile (codexInput)
open GeminiCliProfile (resolveGeminiCliContext)

/-! ## The order of Claude files -/

namespace ClaudeCodeProfile

theorem contains_trans {above middle below : RelativePath} (first : contains above middle = true)
    (second : contains middle below = true) : contains above below = true := by
  unfold contains at *
  simp only [Bool.or_eq_true, beq_iff_eq, isPrefixOf_iff_prefix] at *
  rcases first with (root | rfl) | inside
  · exact .inl (.inl root)
  · exact second
  · rcases second with (root | rfl) | further
    · exfalso
      rw [root] at inside
      have short := inside.length_le
      rw [length_append, length_singleton] at short
      have empty : above = [] :=
        length_eq_zero_iff.mp (Nat.le_zero.mp (Nat.le_of_succ_le_succ short))
      rw [empty] at inside
      revert inside
      decide
    · exact .inr inside
    · exact .inr (inside.trans ((prefix_append middle [0x2f]).trans further))

theorem contains_antisymm {above below : RelativePath} (first : contains above below = true)
    (second : contains below above = true) : above = below := by
  by_contra apart
  have less := directoryRank_lt first apart
  have greater := directoryRank_lt second (Ne.symm apart)
  exact Nat.lt_asymm less greater

/-- What `isBefore` finds. -/
structure Precedes (other candidate : ClaudeInstructionCandidateSnapshot) : Prop where
  apart : other.path ≠ candidate.path
  origin : other.origin = candidate.origin
  memory : candidate.kind ≠ .projectRule ∧ other.kind ≠ .projectRule
  placed : directory other.path ≠ directory candidate.path ∧
      contains (directory other.path) (directory candidate.path) = true ∨
    directory other.path = directory candidate.path ∧ candidate.kind = .memoryLocal ∧
      other.kind = .memoryShared

theorem isBefore_iff {candidate other : ClaudeInstructionCandidateSnapshot} :
    isBefore candidate other = true ↔ Precedes other candidate := by
  unfold isBefore
  split_ifs with elsewhere rule apart
  · refine iff_of_false id fun precedes => ?_
    rcases elsewhere with same | different
    · exact precedes.apart same
    · exact different precedes.origin
  · refine iff_of_false id fun precedes => ?_
    rcases rule with here | there
    · exact precedes.memory.1 here
    · exact precedes.memory.2 there
  · rcases not_or.mp elsewhere with ⟨paths, origins⟩
    constructor
    · exact fun inside => ⟨paths, not_not.mp origins, not_or.mp rule, .inl ⟨apart, inside⟩⟩
    · intro precedes
      rcases precedes.placed with above | beside
      · exact above.2
      · exact absurd beside.1 apart
  · rcases not_or.mp elsewhere with ⟨paths, origins⟩
    rw [not_not] at apart origins
    rw [Bool.and_eq_true, decide_eq_true_iff, decide_eq_true_iff]
    constructor
    · exact fun kinds => ⟨paths, origins, not_or.mp rule, .inr ⟨apart, kinds⟩⟩
    · intro precedes
      rcases precedes.placed with above | beside
      · exact absurd apart above.1
      · exact beside.2

/-- Of two files in one directory, only the local one stands behind the other. -/
theorem Precedes.trans {first second third : ClaudeInstructionCandidateSnapshot}
    (before : Precedes first second) (after : Precedes second third) : Precedes first third := by
  have placed : directory first.path ≠ directory third.path ∧
      contains (directory first.path) (directory third.path) = true := by
    rcases before.placed with above | beside
    · rcases after.placed with further | level
      · refine ⟨fun same => above.1 ?_, contains_trans above.2 further.2⟩
        exact contains_antisymm above.2 (same ▸ further.2)
      · rw [← level.1]
        exact above
    · rcases after.placed with further | level
      · rw [beside.1]
        exact further
      · have kinds := beside.2.1.symm.trans level.2.2
        cases kinds
  exact ⟨fun same => placed.1 (congrArg directory same), before.origin.trans after.origin,
    ⟨after.memory.1, before.memory.2⟩, .inl placed⟩

def Decides (candidates : List ClaudeInstructionCandidateSnapshot)
    (candidate : ClaudeInstructionCandidateSnapshot) (decision : ClaudeCandidateDecision) : Prop :=
  decision.path = candidate.path ∧ decision.orderAfter = orderAfter candidate candidates

/-- The decisions are those on the files of a snapshot. -/
structure DecidesAll (candidates : List ClaudeInstructionCandidateSnapshot)
    (decisions : List ClaudeCandidateDecision) : Prop where
  decided : ∀ decision ∈ decisions, ∃ candidate ∈ candidates, Decides candidates candidate decision
  covered : ∀ candidate ∈ candidates, ∃ decision ∈ decisions, Decides candidates candidate decision
  paths : decisions.map (·.path) = candidates.map (·.path)

theorem decidesAll {readers : ClaudeReaders} {rawInput : ResolveClaudeCodeProfileInput}
    {resolution : ClaudeCodeProfileResolution}
    (accepted : resolveClaudeCodeProfile readers rawInput = .ok resolution) :
    ∃ candidates, DecidesAll candidates resolution.candidates := by
  unfold resolveClaudeCodeProfile at accepted
  simp only [bind_eq_ok, pure, Except.pure, Except.ok.injEq] at accepted
  rcases accepted with ⟨input, _, decisions, decided, rfl⟩
  have each := mapM_eq_ok.mp decided
  have paths : decisions.map (·.path) = input.candidates.map (·.path) := by
    rw [← forall₂_eq_eq_eq, forall₂_map_left_iff, forall₂_map_right_iff]
    exact each.flip.imp fun _ _ made => (candidateDecision_eq_ok made).1
  refine ⟨input.candidates, ?_, ?_, paths⟩
  · intro decision member
    rcases exists_of_mem_mapM decided member with ⟨candidate, inCandidates, made⟩
    exact ⟨candidate, inCandidates, candidateDecision_eq_ok made⟩
  · intro candidate member
    rcases exists_mem_of_mapM decided member with ⟨decision, inDecisions, made⟩
    exact ⟨decision, inDecisions, candidateDecision_eq_ok made⟩

end ClaudeCodeProfile

/-! ## The edges of a projection -/

namespace ProfileProjections

open EffectiveContext (AmbiguityRequest ContextOrdering EffectiveContextAmbiguity EffectiveContextDocument EffectiveContextPrecedence EffectiveContextResolution IdsDistinguish Projection addAmbiguities addAmbiguity arc complete_iff conflictAmbiguities conflictOf conflictPrecedence defaultHost documentAt documentAt_eq_some documentId documentsOf failIf_eq_ok geminiDocument geminiDocuments geminiEffective geminiPrecedence ids_nodup isDag launch loadOrder opposed orders_iff pairs paths_documentsOf paths_geminiDocuments possible precedenceOf projectClaude projectGemini projectedPrecedence sequencedIds)

variable (precedence : List EffectiveContextPrecedence)

/-- The precedence relation orders two documents, directly or through others. -/
def Precedes (before after : Text) : Prop :=
  Reaches (precedence.map arc) before after

/-- The relation orders the two, one way or the other. -/
def Ordered (first second : EffectiveContextDocument) : Prop :=
  Precedes precedence first.id second.id ∨ Precedes precedence second.id first.id

/-- An edge joins the two. -/
def Joined (first second : EffectiveContextDocument) : Prop :=
  (first.id, second.id) ∈ precedence.map arc ∨ (second.id, first.id) ∈ precedence.map arc

theorem Joined.ordered {precedence : List EffectiveContextPrecedence}
    {first second : EffectiveContextDocument} (joined : Joined precedence first second) :
    Ordered precedence first second :=
  joined.imp .single .single

section Claude

variable {value : ClaudeCodeProfileResolution}
  {candidates : List ClaudeInstructionCandidateSnapshot} {before after : Text}

theorem exists_documentAt {path : RelativePath} (member : path ∈ value.candidates.map (·.path)) :
    ∃ document, documentAt (documentsOf value) path = some document := by
  have inDocuments := (paths_documentsOf value).mem_iff.mpr member
  rcases mem_map.mp inDocuments with ⟨document, inDocuments, atPath⟩
  apply Option.isSome_iff_exists.mp
  rw [documentAt, find?_isSome]
  exact ⟨document, mem_reverse.mpr inDocuments, decide_eq_true atPath⟩

/-- The edges lead along the documented order. -/
theorem mem_claude_arcs (decides : ClaudeCodeProfile.DecidesAll candidates value.candidates) : (before, after) ∈ (projectedPrecedence value).map arc ↔
      ∃ first ∈ candidates, ∃ second ∈ candidates, ClaudeCodeProfile.Precedes first second ∧
        before = documentId ClaudeCodeProfile.profileId first.path ∧
        after = documentId ClaudeCodeProfile.profileId second.path := by
  constructor
  · intro member
    rcases mem_map.mp member with ⟨edge, inEdges, eq⟩
    rcases EffectiveContext.mem_projectedPrecedence inEdges with
      ⟨decision, inDecisions, path, inOrder, ids⟩
    rcases decides.decided decision inDecisions with ⟨second, inSecond, samePath, sameOrder⟩
    rw [sameOrder, ClaudeCodeProfile.orderAfter, mem_sortBy] at inOrder
    rcases mem_map.mp inOrder with ⟨first, found, rfl⟩
    rcases mem_filter.mp found with ⟨inFirst, precedes⟩
    rw [eq, samePath, Prod.mk.injEq] at ids
    exact ⟨first, inFirst, second, inSecond, ClaudeCodeProfile.isBefore_iff.mp precedes, ids⟩
  · intro found
    rcases found with ⟨first, inFirst, second, inSecond, precedes, rfl, rfl⟩
    rcases decides.covered second inSecond with ⟨decision, inDecisions, samePath, sameOrder⟩
    have inOrder : first.path ∈ decision.orderAfter := by
      rw [sameOrder, ClaudeCodeProfile.orderAfter, mem_sortBy]
      exact mem_map_of_mem
        (mem_filter.mpr ⟨inFirst, ClaudeCodeProfile.isBefore_iff.mpr precedes⟩)
    have known : first.path ∈ value.candidates.map (·.path) :=
      decides.paths ▸ mem_map_of_mem inFirst
    rcases exists_documentAt known with ⟨earlier, foundEarlier⟩
    rcases exists_documentAt (mem_map_of_mem inDecisions) with ⟨later, foundLater⟩
    rcases documentAt_eq_some foundEarlier with ⟨inEarlier, earlierPath⟩
    rcases documentAt_eq_some foundLater with ⟨inLater, laterPath⟩
    apply mem_map.mpr
    refine ⟨⟨later.id, earlier.id, .documentedPartialOrder⟩, ?_, ?_⟩
    · apply mem_flatMap.mpr
      refine ⟨decision, inDecisions, ?_⟩
      rw [precedenceOf, foundLater]
      apply mem_filterMap.mpr
      exact ⟨first.path, inOrder, by rw [foundEarlier]; rfl⟩
    · rw [arc, EffectiveContext.id_eq inEarlier, EffectiveContext.id_eq inLater, earlierPath,
        laterPath, samePath]

/-- What is ordered through others is joined by an edge. -/
theorem claude_joined (decides : ClaudeCodeProfile.DecidesAll candidates value.candidates)
    (distinct : (value.candidates.map (·.path)).Nodup)
    (free : IdsDistinguish ClaudeCodeProfile.profileId (value.candidates.map (·.path))) (precedes : Precedes (projectedPrecedence value) before after) :
    (before, after) ∈ (projectedPrecedence value).map arc := by
  rw [decides.paths] at distinct free
  induction precedes with
  | single edge => exact edge
  | tail _ edge ih =>
    rcases (mem_claude_arcs decides).mp ih with ⟨first, inFirst, second, inSecond, earlier, rfl, rfl⟩
    rcases (mem_claude_arcs decides).mp edge with ⟨other, inOther, third, inThird, later, same, rfl⟩
    have paths := free second.path (mem_map_of_mem inSecond) other.path
      (mem_map_of_mem inOther) same
    have one : second = other := inj_on_of_nodup_map distinct inSecond inOther paths
    subst one
    exact (mem_claude_arcs decides).mpr
      ⟨first, inFirst, third, inThird, earlier.trans later, rfl, rfl⟩

end Claude

variable {first second : EffectiveContextDocument} {effective : List EffectiveContextDocument}

/-! ## Load orders -/

/-- Of two documents, the one loaded first precedes the other. -/
theorem precedes_loadOrder (before : Before effective first second) :
    Precedes (loadOrder effective) first.id second.id := by
  induction effective generalizing first with
  | nil => cases before
  | cons head rest ih =>
    cases rest with
    | nil =>
      cases before with
      | cons _ later => cases later
      | cons_cons _ later => cases later
    | cons next rest =>
      have more : (loadOrder (next :: rest)).map arc ⊆ (loadOrder (head :: next :: rest)).map arc :=
        map_subset _ (subset_cons_self _ _)
      have edge : (head.id, next.id) ∈ (loadOrder (head :: next :: rest)).map arc :=
        mem_cons_self
      cases before with
      | cons _ later => exact reaches_subset more (ih later)
      | cons_cons _ later =>
        rcases mem_cons.mp (singleton_sublist.mp later) with rfl | behind
        · exact .single edge
        · have further : Before (next :: rest) next second :=
            Sublist.cons_cons next (singleton_sublist.mpr behind)
          exact (Relation.TransGen.single edge).trans (reaches_subset more (ih further))

theorem before_or_before {α : Type} {list : List α} {a b : α} (inA : a ∈ list) (inB : b ∈ list)
    (apart : a ≠ b) : Before list a b ∨ Before list b a := by
  rcases append_of_mem inA with ⟨front, rest, rfl⟩
  rcases mem_append.mp inB with inFront | inRest
  · exact .inr (before_append_cons inFront)
  · have behind := (mem_cons.mp inRest).resolve_left apart.symm
    exact .inl (Before.append_left
      (Sublist.cons_cons a (singleton_sublist.mpr behind)) front)

theorem ordered_loadOrder (inFirst : first ∈ effective) (inSecond : second ∈ effective)
    (apart : first ≠ second) : Ordered (loadOrder effective) first second :=
  (before_or_before inFirst inSecond apart).imp precedes_loadOrder precedes_loadOrder

/-! ## Reports -/

/-- A document that is active, and neither shadowed nor empty. -/
def InForce (document : EffectiveContextDocument) : Prop :=
  document.activation = .active ∧ document.state ≠ .shadowed ∧ document.state ≠ .empty

/-- Something holds of every two of the documents that are in force. -/
def OfTwoInForce (documents : List EffectiveContextDocument)
    (holds : EffectiveContextDocument → EffectiveContextDocument → Prop) : Prop :=
  ∀ first ∈ documents, ∀ second ∈ documents, first ≠ second → InForce first → InForce second →
    holds first second

/-- The ambiguity that is added for a conflict without an order. -/
def undefinedPrecedence (firstDocumentId secondDocumentId : Text) : AmbiguityRequest :=
  ⟨.precedence, js "conflict-precedence-undefined", [firstDocumentId, secondDocumentId]⟩

/-- The conflict between the two is reported without an order, and the ambiguity is raised. -/
def ReportsUndefined (result : EffectiveContextResolution)
    (first second : EffectiveContextDocument) : Prop :=
  ∃ conflict ∈ result.conflicts, conflict.precedence = .undefined ∧
    (conflict.firstDocumentId = first.id ∧ conflict.secondDocumentId = second.id ∨
      conflict.firstDocumentId = second.id ∧ conflict.secondDocumentId = first.id) ∧
    (undefinedPrecedence conflict.firstDocumentId conflict.secondDocumentId).ambiguity.id ∈
      result.ambiguities.map (·.id)

/-- The conflicts without an order are those between documents that the relation orders neither
way; in a total order there are none. -/
structure PrecedenceReported (result : EffectiveContextResolution) : Prop where
  exact : OfTwoInForce result.documents fun first second =>
    (ReportsUndefined result first second ↔ ¬ Ordered result.precedence first second)
  total : result.ordering = .total → ∀ conflict ∈ result.conflicts, conflict.precedence ≠ .undefined

section Ambiguities

variable {output out : List EffectiveContextAmbiguity} {requests : List AmbiguityRequest}
  {request : AmbiguityRequest}

theorem ids_addAmbiguity (ran : addAmbiguity output request = .ok out) :
    output.map (·.id) ⊆ out.map (·.id) ∧ request.ambiguity.id ∈ out.map (·.id) := by
  unfold addAmbiguity at ran
  dsimp only at ran
  split_ifs at ran with known
  · cases ran
    exact ⟨Subset.refl _, known⟩
  · rcases check_bind_eq_ok.mp ran with ⟨_, ran⟩
    cases ran
    rw [map_append]
    exact ⟨subset_append_left _ _, mem_append_right _ mem_cons_self⟩

theorem ids_addAmbiguities (ran : addAmbiguities output requests = .ok out) :
    output.map (·.id) ⊆ out.map (·.id) ∧
      ∀ request ∈ requests, request.ambiguity.id ∈ out.map (·.id) := by
  induction requests generalizing output with
  | nil =>
    cases ran
    exact ⟨Subset.refl _, fun _ member => by cases member⟩
  | cons request rest ih =>
    rw [addAmbiguities, foldlM_cons] at ran
    rcases bind_eq_ok.mp ran with ⟨next, first, later⟩
    rcases ids_addAmbiguity first with ⟨kept, added⟩
    rcases ih later with ⟨keptLater, addedLater⟩
    refine ⟨Subset.trans kept keptLater, fun other member => ?_⟩
    rcases mem_cons.mp member with rfl | inRest
    · exact keptLater added
    · exact addedLater other inRest

end Ambiguities

theorem mem_pairs_or {α : Type} {list : List α} {a b : α} (inA : a ∈ list) (inB : b ∈ list)
    (apart : a ≠ b) : (a, b) ∈ pairs list ∨ (b, a) ∈ pairs list := by
  induction list with
  | nil => cases inA
  | cons head rest ih =>
    rcases mem_cons.mp inA with rfl | laterA
    · have inRest := (mem_cons.mp inB).resolve_left apart.symm
      exact .inl (mem_append_left _ (mem_map_of_mem inRest))
    · rcases mem_cons.mp inB with rfl | laterB
      · exact .inr (mem_append_left _ (mem_map_of_mem laterA))
      · exact (ih laterA laterB).imp (mem_append_right _) (mem_append_right _)

section Conflicts

variable {precedence : List EffectiveContextPrecedence} {profileId : Text}
  {documents : List EffectiveContextDocument} {first second : EffectiveContextDocument}

theorem conflictPrecedence_eq_undefined :
    conflictPrecedence first second precedence profileId = .undefined ↔
      first.activation ≠ .indeterminate ∧ second.activation ≠ .indeterminate ∧
        profileId ≠ js "codex-cli" ∧ ¬ Joined precedence first second := by
  unfold conflictPrecedence Joined
  split_ifs with unknown codex joined
  · refine iff_of_false (fun eq => by cases eq) fun known => ?_
    exact unknown.elim known.1 known.2.1
  · exact iff_of_false (fun eq => by cases eq) fun known => known.2.2.1 codex
  · exact iff_of_false (fun eq => by cases eq) fun known => known.2.2.2 joined
  · rcases not_or.mp unknown with ⟨firstKnown, secondKnown⟩
    exact iff_of_true rfl ⟨firstKnown, secondKnown, codex, joined⟩

theorem mem_opposed_filter {document : EffectiveContextDocument} :
    document ∈ (possible documents).filter
        (fun entry => entry.state ≠ .shadowed ∧ entry.state ≠ .empty) ↔
      document ∈ documents ∧ document.activation ≠ .inactive ∧ document.state ≠ .shadowed ∧
        document.state ≠ .empty := by
  rw [mem_filter, possible, mem_filter, decide_eq_true_iff, decide_eq_true_iff, and_assoc]

/-- Two documents in force are opposed, in the order in which they are listed. -/
theorem mem_opposed (inFirst : first ∈ documents) (inSecond : second ∈ documents)
    (apart : first ≠ second) (firstForce : InForce first) (secondForce : InForce second) :
    (first, second) ∈ opposed documents ∨ (second, first) ∈ opposed documents := by
  have listed : ∀ document ∈ documents, InForce document → document ∈ (possible documents).filter
      (fun entry => entry.state ≠ .shadowed ∧ entry.state ≠ .empty) := by
    intro document member force
    refine mem_opposed_filter.mpr ⟨member, fun inactive => ?_, force.2⟩
    rw [force.1] at inactive
    cases inactive
  exact mem_pairs_or (listed first inFirst firstForce) (listed second inSecond secondForce) apart

end Conflicts

section Runs

variable {input : ResolveEffectiveContextInput} {result : EffectiveContextResolution}
  {projection : Projection}
  {effective : List EffectiveContextDocument} {value : GeminiCliResolution}

theorem Run.result_eq (run : Run input result projection) :
    result.documents = projection.documents ∧ result.precedence = projection.precedence ∧
      result.ordering = projection.ordering ∧ result.profileId = projection.profileId ∧
      result.conflicts = (opposed projection.documents).map
        (conflictOf projection.precedence projection.profileId) := by
  rcases run.made with ⟨_, _, _, _, _, _, rfl⟩
  exact ⟨rfl, rfl, rfl, rfl, rfl⟩

/-- For each conflict without an order the ambiguity is raised. -/
theorem Run.raised (run : Run input result projection)
    {conflict : EffectiveContext.EffectiveContextConflictOpportunity}
    (member : conflict ∈ result.conflicts) (undefined_ : conflict.precedence = .undefined) :
    (undefinedPrecedence conflict.firstDocumentId conflict.secondDocumentId).ambiguity.id ∈
      result.ambiguities.map (·.id) := by
  rcases run.made with ⟨occurrences, ambiguities, before, between, conflicting, final, rfl⟩
  have asked : undefinedPrecedence conflict.firstDocumentId conflict.secondDocumentId ∈
      ((opposed projection.documents).map
        (conflictOf projection.precedence projection.profileId)).flatMap conflictAmbiguities := by
    apply mem_flatMap.mpr
    refine ⟨conflict, member, ?_⟩
    rw [conflictAmbiguities, undefined_]
    exact mem_cons_self
  have added := (ids_addAmbiguities final).1 ((ids_addAmbiguities conflicting).2 _ asked)
  exact ((sortBy_perm _ _).map _).mem_iff.mpr added

/-- What is reported is whether an edge joins the two. -/
theorem Run.reportsUndefined_iff (run : Run input result projection) :
    OfTwoInForce projection.documents fun first second => (ReportsUndefined result first second ↔
      projection.profileId ≠ js "codex-cli" ∧ ¬ Joined projection.precedence first second) := by
  intro first inFirst second inSecond apart firstForce secondForce
  have conflicts := run.result_eq.2.2.2.2
  constructor
  · intro reported
    rcases reported with ⟨conflict, member, undefined_, names, _⟩
    rw [conflicts] at member
    rcases mem_map.mp member with ⟨pair, _, rfl⟩
    rcases conflictPrecedence_eq_undefined.mp undefined_ with ⟨_, _, codex, notJoined⟩
    refine ⟨codex, fun joined => notJoined ?_⟩
    unfold Joined at joined ⊢
    rcases names with ⟨sameFirst, sameSecond⟩ | ⟨sameFirst, sameSecond⟩
    · rw [show pair.1.id = first.id from sameFirst, show pair.2.id = second.id from sameSecond]
      exact joined
    · rw [show pair.1.id = second.id from sameFirst, show pair.2.id = first.id from sameSecond]
      exact joined.symm
  · intro open_
    have active : ∀ document, InForce document → document.activation ≠ .indeterminate := by
      intro document force indeterminate
      rw [force.1] at indeterminate
      cases indeterminate
    have report : ∀ pair ∈ opposed projection.documents, pair = (first, second) ∨
        pair = (second, first) → ReportsUndefined result first second := by
      intro pair member names
      have inConflicts : conflictOf projection.precedence projection.profileId pair ∈
          result.conflicts := conflicts ▸ mem_map_of_mem member
      have undefined_ : conflictPrecedence pair.1 pair.2 projection.precedence
          projection.profileId = .undefined := by
        apply conflictPrecedence_eq_undefined.mpr
        rcases names with rfl | rfl
        · exact ⟨active first firstForce, active second secondForce, open_⟩
        · exact ⟨active second secondForce, active first firstForce, open_.1,
            fun joined => open_.2 joined.symm⟩
      refine ⟨_, inConflicts, undefined_, ?_, run.raised inConflicts undefined_⟩
      rcases names with rfl | rfl
      · exact .inl ⟨rfl, rfl⟩
      · exact .inr ⟨rfl, rfl⟩
    rcases mem_opposed inFirst inSecond apart firstForce secondForce with listed | listed
    · exact report _ listed (.inl rfl)
    · exact report _ listed (.inr rfl)

/-- The reports are exact if a missing edge is one that the relation does not make up for. -/
theorem Run.precedenceReported (run : Run input result projection)
    (codex : projection.profileId = js "codex-cli" →
      OfTwoInForce projection.documents (Ordered projection.precedence))
    (joins : OfTwoInForce projection.documents fun first second =>
      Ordered projection.precedence first second → projection.profileId ≠ js "codex-cli" →
        Joined projection.precedence first second) (total : projection.ordering = .total →
      OfTwoInForce projection.documents (Ordered projection.precedence)) :
    PrecedenceReported result := by
  have fields := run.result_eq
  have exact_ : OfTwoInForce projection.documents fun first second =>
      (ReportsUndefined result first second ↔ ¬ Ordered projection.precedence first second) := by
    intro first inFirst second inSecond apart firstForce secondForce
    apply (run.reportsUndefined_iff first inFirst second inSecond apart firstForce secondForce).trans
    constructor
    · exact fun open_ ordered => open_.2
        (joins first inFirst second inSecond apart firstForce secondForce ordered open_.1)
    · exact fun unordered => ⟨fun same => unordered
        (codex same first inFirst second inSecond apart firstForce secondForce),
        fun joined => unordered joined.ordered⟩
  constructor
  · rw [fields.1, fields.2.1]
    exact exact_
  · intro isTotal conflict member undefined_
    rw [fields.2.2.1] at isTotal
    rw [fields.2.2.2.2] at member
    rcases mem_map.mp member with ⟨pair, inOpposed, rfl⟩
    rcases conflictPrecedence_eq_undefined.mp undefined_ with ⟨firstKnown, secondKnown, open_⟩
    have inForce : ∀ document, document ∈ (possible projection.documents).filter
        (fun entry => entry.state ≠ .shadowed ∧ entry.state ≠ .empty) →
        document.activation ≠ .indeterminate → document ∈ projection.documents ∧ InForce document := by
      intro document listed known
      rcases mem_opposed_filter.mp listed with ⟨inDocuments, notInactive, state⟩
      refine ⟨inDocuments, ?_, state⟩
      cases activation : document.activation with
      | active => rfl
      | inactive => exact absurd activation notInactive
      | indeterminate => exact absurd activation known
    have sides := CrossProfile.mem_of_mem_pairs inOpposed
    have distinct : projection.documents.Nodup := Nodup.of_map _ run.paths
    have apart := CrossProfile.ne_of_mem_pairs ((distinct.filter _).filter _) inOpposed
    rcases inForce _ sides.1 firstKnown with ⟨inFirst, firstForce⟩
    rcases inForce _ sides.2 secondKnown with ⟨inSecond, secondForce⟩
    have ordered := total isTotal _ inFirst _ inSecond apart firstForce secondForce
    exact open_.2 (joins _ inFirst _ inSecond apart firstForce secondForce ordered open_.1)

/-! ## The profiles -/

/-- A resolution that was issued by the resolver of its profile. Of the resolvers that are not
modelled, only the identifiers of their profiles count. -/
def IssuedProfile : EffectiveContextProfileResolution → Prop
  | .codexCli value => value.profile.profileId = js "codex-cli"
  | .copilot value => value.profile.profileId ∈ [js "copilot-cli", js "copilot-cloud-agent",
      js "copilot-code-review", js "copilot-vscode"]
  | .cursor value => value.profile.profileId = js "cursor-agent"
  | .modelled (.claudeCode value) => ∃ readers rawInput,
      ClaudeCodeProfile.resolveClaudeCodeProfile readers rawInput = .ok value
  | .modelled (.geminiCli value) => ∃ host rawInput reads,
      resolveGeminiCliContext host rawInput = .ok (value, reads)

def loadedGeminiFiles : EffectiveContextProfileResolution → Nat
  | .modelled (.geminiCli value) => (geminiEffective value).length
  | _ => 0

theorem codex_reported {value : CodexCliAgentsResolution} (run : Run input result projection)
    (codex : value.profile.profileId = js "codex-cli")
    (projects : projectCodex value = .ok projection) : PrecedenceReported result := by
  have shape := codex_shape projects
  have ordered : OfTwoInForce projection.documents (Ordered projection.precedence) := by
    rw [shape.documents, shape.precedence]
    intro first inFirst second inSecond apart firstForce secondForce
    have listed : ∀ document ∈ codexDocuments value, InForce document →
        document ∈ codexEffective value := fun document member force =>
      (mem_sortBy _).mpr (mem_filter.mpr ⟨member, decide_eq_true ⟨force.1, force.2.1⟩⟩)
    exact ordered_loadOrder (listed first inFirst firstForce) (listed second inSecond secondForce)
      apart
  refine run.precedenceReported (fun _ => ordered) ?_ fun _ => ordered
  intro _ _ _ _ _ _ _ _ other
  exact absurd (shape.profileId.trans codex) other

/-- Without precedence, only a single document is in a total order. -/
theorem unordered_reported (run : Run input result projection)
    (none : projection.precedence = []) (other : projection.profileId ≠ js "codex-cli")
    (alone : projection.ordering = .total → (possible projection.documents).length ≤ 1) :
    PrecedenceReported result := by
  refine run.precedenceReported (fun codex => absurd codex other) ?_ ?_
  · intro first _ second _ _ _ _ ordered
    rw [none] at ordered
    exfalso
    rcases ordered with precedes | precedes
    · rcases Relation.TransGen.head'_iff.mp precedes with ⟨_, edge, _⟩
      cases edge
    · rcases Relation.TransGen.head'_iff.mp precedes with ⟨_, edge, _⟩
      cases edge
  · intro total first inFirst second inSecond apart firstForce secondForce
    have listed : ∀ document ∈ projection.documents, InForce document →
        document ∈ possible projection.documents := by
      intro document member force
      refine mem_filter.mpr ⟨member, decide_eq_true fun inactive => ?_⟩
      rw [force.1] at inactive
      cases inactive
    have pair : [first, second].Subperm (possible projection.documents) :=
      subperm_of_subset (nodup_cons.mpr ⟨by simpa using apart, nodup_singleton _⟩) (by
        intro document member
        rcases mem_pair.mp member with rfl | rfl
        · exact listed document inFirst firstForce
        · exact listed document inSecond secondForce)
    exact absurd (pair.length_le.trans (alone total)) (by simp)

theorem claude_reported {value : ClaudeCodeProfileResolution} {readers : ClaudeReaders}
    {rawInput : ResolveClaudeCodeProfileInput} (run : Run input result projection)
    (accepted : ClaudeCodeProfile.resolveClaudeCodeProfile readers rawInput = .ok value)
    (projects : projectClaude value = .ok projection)
    (free : IdsDistinguish projection.profileId (projection.documents.map (·.path))) :
    PrecedenceReported result := by
  have shape := claude_shape projects
  rcases ClaudeCodeProfile.decidesAll accepted with ⟨candidates, decides⟩
  have samePaths := paths_documentsOf value
  rw [shape.documents, shape.profileId] at free
  have freePaths : IdsDistinguish ClaudeCodeProfile.profileId (value.candidates.map (·.path)) :=
    fun first inFirst second inSecond =>
      free first (samePaths.mem_iff.mpr inFirst) second (samePaths.mem_iff.mpr inSecond)
  have paths := run.paths
  rw [shape.documents] at paths
  have distinct := samePaths.nodup_iff.mp paths
  have other : projection.profileId ≠ js "codex-cli" := by
    rw [shape.profileId]
    decide
  refine run.precedenceReported (fun codex => absurd codex other) ?_ ?_
  · rw [shape.precedence]
    exact fun first _ second _ _ _ _ ordered _ =>
      ordered.imp (claude_joined decides distinct freePaths) (claude_joined decides distinct freePaths)
  · rw [shape.documents, shape.precedence, shape.ordering]
    intro total first inFirst second inSecond apart firstForce secondForce
    have acyclic : Acyclic ((projectedPrecedence value).map arc) :=
      acyclic_of_rank _ (EffectiveContext.idRank_increases (ClaudeCodeProfile.resolved accepted)
        freePaths)
    have complete : (EffectiveContext.orderedDocuments value).complete = true := by
      by_contra open_
      rw [if_neg open_] at total
      cases total
    have one := (complete_iff acyclic).mp complete
    simp only [orders_iff] at one
    have listed : ∀ document ∈ documentsOf value, InForce document →
        document.id ∈ sequencedIds (possible (documentsOf value)) := by
      intro document member force
      refine EffectiveContext.mem_sequencedIds.mpr ⟨document, mem_filter.mpr ⟨member, ?_⟩, rfl⟩
      rw [force.1]
      rfl
    have ids := ids_nodup distinct freePaths
    have idsApart : first.id ≠ second.id := fun same =>
      apart (inj_on_of_nodup_map ids inFirst inSecond same)
    have reaches := (isDag acyclic).reaches_of_unique one
      (listed first inFirst firstForce) (listed second inSecond secondForce) idsApart
    exact reaches.imp (reaches_subset (filter_subset_self _))
      (reaches_subset (filter_subset_self _))

/-! ## Gemini files -/

theorem gemini_inForce {document : EffectiveContextDocument}
    (member : document ∈ geminiDocuments value) :
    InForce document ↔ document ∈ geminiEffective value := by
  have both : ∀ entry, InForce (geminiDocument entry) ↔
      (geminiDocument entry).state = .effective := by
    intro entry
    unfold InForce
    rw [EffectiveContext.activation_geminiDocument, EffectiveContext.state_geminiDocument]
    by_cases loaded : entry.1.isLoaded = true <;> simp [loaded]
  rw [geminiEffective, mem_filter, decide_eq_true_iff, and_iff_right member]
  rcases mem_map.mp member with ⟨entry, _, rfl⟩
  exact both entry

/-- With at most two documents, what is ordered is joined. -/
theorem joined_of_few (few : effective.length ≤ 2) {first second : EffectiveContextDocument}
    (inFirst : first ∈ effective) (inSecond : second ∈ effective) (apart : first ≠ second) :
    Joined (loadOrder effective) first second := by
  have whole : ∀ {a b : EffectiveContextDocument}, Before effective a b → effective = [a, b] :=
    fun before => (before.eq_of_length_le few).symm
  rcases before_or_before inFirst inSecond apart with before | before
  · rw [whole before]
    exact .inl mem_cons_self
  · rw [whole before]
    exact .inr mem_cons_self

theorem mem_loadOrder_arcs {before after : Text}
    (member : (before, after) ∈ (loadOrder effective).map arc) :
    before ∈ effective.map (·.id) ∧ after ∈ effective.tail.map (·.id) := by
  rcases mem_map.mp member with ⟨edge, inEdges, eq⟩
  rcases mem_map.mp inEdges with ⟨pair, inPairs, rfl⟩
  cases eq
  have sides := of_mem_zip inPairs
  exact ⟨mem_map_of_mem sides.2, mem_map_of_mem sides.1⟩

/-- The first and the third of at least three documents are not joined. -/
theorem not_joined_third {first second third : EffectiveContextDocument}
    {rest : List EffectiveContextDocument}
    (distinct : ((first :: second :: third :: rest).map (·.id)).Nodup) :
    ¬ Joined (loadOrder (first :: second :: third :: rest)) first third := by
  rcases nodup_cons.mp distinct with ⟨firstFresh, distinct⟩
  rcases nodup_cons.mp distinct with ⟨secondFresh, _⟩
  intro joined
  rcases joined with forwards | backwards
  · rcases mem_cons.mp forwards with edge | later
    · have same : third.id = second.id := (Prod.mk.inj edge).2
      exact secondFresh (mem_cons.mpr (.inl same.symm))
    · exact firstFresh (mem_loadOrder_arcs later).1
  · exact firstFresh (mem_loadOrder_arcs backwards).2

theorem gemini_reported_iff (run : Run input result projection)
    (projects : projectGemini value = .ok projection)
    (free : IdsDistinguish projection.profileId (projection.documents.map (·.path))) :
    PrecedenceReported result ↔ (geminiEffective value).length ≤ 2 := by
  have shape := gemini_shape projects
  have other : projection.profileId ≠ js "codex-cli" := by
    rw [shape.profileId]
    decide
  constructor
  · intro reported
    by_contra many
    have paths := run.paths
    rw [shape.documents, paths_geminiDocuments] at paths
    rw [shape.documents, shape.profileId, paths_geminiDocuments] at free
    have distinct := EffectiveContext.nodup_geminiEffective_ids free (fun _ => id) paths
    have within : ∀ document ∈ geminiEffective value, document ∈ projection.documents ∧
        InForce document := by
      intro document member
      have inDocuments := (mem_filter.mp member).1
      exact ⟨shape.documents ▸ inDocuments, (gemini_inForce inDocuments).mpr member⟩
    rcases effective : geminiEffective value with _ | ⟨first, _ | ⟨second, _ | ⟨third, rest⟩⟩⟩
    · exact many (effective ▸ Nat.zero_le _)
    · exact many (effective ▸ Nat.succ_le_succ (Nat.zero_le _))
    · exact many (effective ▸ Nat.le_refl _)
    · rw [effective] at distinct within
      rcases within first mem_cons_self with ⟨inFirst, firstForce⟩
      rcases within third (by simp) with ⟨inThird, thirdForce⟩
      have apart : first ≠ third := fun same =>
        (nodup_cons.mp distinct).1 (same ▸ by simp)
      have notJoined := not_joined_third distinct
      have order : projection.precedence = loadOrder (first :: second :: third :: rest) := by
        rw [shape.precedence, geminiPrecedence, effective]
      have fields := run.result_eq
      have report := (run.reportsUndefined_iff first inFirst third inThird apart firstForce
        thirdForce).mpr ⟨other, order ▸ notJoined⟩
      have unordered := (reported.exact first (fields.1 ▸ inFirst) third (fields.1 ▸ inThird) apart
        firstForce thirdForce).mp report
      rw [fields.2.1, order] at unordered
      exact unordered (ordered_loadOrder mem_cons_self (by simp) apart)
  · intro few
    have listed : ∀ document ∈ projection.documents, InForce document →
        document ∈ geminiEffective value := by
      intro document member force
      rw [shape.documents] at member
      exact (gemini_inForce member).mp force
    refine run.precedenceReported (fun codex => absurd codex other) ?_ ?_
    · rw [shape.precedence]
      exact fun first inFirst second inSecond apart firstForce secondForce _ _ => joined_of_few few
        (listed first inFirst firstForce) (listed second inSecond secondForce) apart
    · rw [shape.precedence]
      exact fun _ first inFirst second inSecond apart firstForce secondForce => ordered_loadOrder
        (listed first inFirst firstForce) (listed second inSecond secondForce) apart

/-! ## All profiles -/

/-- The conflicts without an order are exactly those between documents that are not ordered, unless
more than two Gemini files were loaded. -/
theorem precedenceReported_iff (issued : IssuedProfile input.profileResolution)
    (ran : resolveEffectiveContext input = .ok result)
    (free : IdsDistinguish result.profileId (result.documents.map (·.path))) :
    PrecedenceReported result ↔ loadedGeminiFiles input.profileResolution ≤ 2 := by
  rcases exists_run ran with ⟨projection, run⟩
  have fields := run.result_eq
  rw [fields.1, fields.2.2.2.1] at free
  have projects := run.projects
  cases profile : input.profileResolution with
  | codexCli value =>
    rw [profile] at projects issued
    exact iff_of_true (codex_reported run issued (check_bind_eq_ok.mp projects).2) (Nat.zero_le _)
  | copilot value =>
    rw [profile] at projects issued
    have shape := copilot_shape projects
    refine iff_of_true (unordered_reported run shape.precedence ?_ ?_) (Nat.zero_le _)
    · intro codex
      have known : value.profile.profileId ∈ _ := issued
      rw [← shape.profileId, codex] at known
      revert known
      decide
    · rw [shape.ordering, shape.documents]
      intro total
      by_contra several
      rw [if_neg several] at total
      cases total
  | cursor value =>
    rw [profile] at projects issued
    have shape := cursor_shape projects
    refine iff_of_true (unordered_reported run shape.precedence ?_ ?_) (Nat.zero_le _)
    · intro codex
      rw [shape.profileId, show value.profile.profileId = js "cursor-agent" from issued] at codex
      revert codex
      decide
    · rw [shape.ordering, shape.documents]
      intro total
      by_contra several
      rw [if_neg several] at total
      cases total
  | modelled value =>
    rw [profile] at projects issued
    cases value with
    | claudeCode value =>
      rcases issued with ⟨readers, rawInput, accepted⟩
      exact iff_of_true (claude_reported run accepted projects free) (Nat.zero_le _)
    | geminiCli value => exact gemini_reported_iff run projects free

end Runs

/-! ## Nested Gemini files -/

/-- The import graph of a file without imports, which has one byte. -/
def graphWithoutImports (path : RelativePath) : ImportGraphResult :=
  ImportGraph.resultOf .geminiCli path { ImportGraph.initialState with
    nodes := [ImportGraph.makeNode path 0 (ImportGraph.stableIds path .geminiCli [0x78]) [0x78] []
      .loaded]
    totalBytes := 1 }

def plainGeminiHost : GeminiHost :=
  { defaultHost with
    parse := fun path _ => some ⟨js "document:" ++ path, [], js "x"⟩
    loadImports := fun request => .ok (graphWithoutImports request.entryPath) }

/-- A session that starts at the root and then reads a file below. -/
def nestedSession : ResolveGeminiCliInput where
  boundaryMarkerDirectories := []
  candidates := [⟨none, [], .file, js "GEMINI.md"⟩, ⟨none, [], .file, js "a/GEMINI.md"⟩,
    ⟨none, [], .file, js "a/b/GEMINI.md"⟩]
  events := [launch, ⟨js "read", .readPath, some (js "a/b/x.ts")⟩]
  externalContext := .explicitSynthetic
  settingsLayers := []
  trustState := .trusted
  workspaceRoots := [RepositoryPath.repositoryRoot]

/-- The session without its last file. -/
def pairSession : ResolveGeminiCliInput :=
  { nestedSession with candidates := nestedSession.candidates.take 2 }

/-- Two loaded files of a profile leave no conflict without an order. -/
theorem precedenceReported_iff_shared :
    (∃ result, resolveEffectiveContext codexInput = .ok result ∧
      result.documents.length = 2 ∧ PrecedenceReported result) ∧
    ∃ value reads result,
      resolveGeminiCliContext plainGeminiHost pairSession = .ok (value, reads) ∧
      resolveEffectiveContext ⟨[], .modelled (.geminiCli value), js "a/b/x.ts"⟩ = .ok result ∧
      result.conflicts.map (·.precedence) = [.documentedOrder] ∧ PrecedenceReported result := by
  constructor
  · have facts : ((resolveEffectiveContext codexInput).toOption.map fun result =>
        decide (result.documents.length = 2 ∧ ∀ first ∈ result.documents.map (·.path),
          ∀ second ∈ result.documents.map (·.path), documentId result.profileId first =
            documentId result.profileId second → first = second)) = some true := by
      decide +kernel
    rcases Option.map_eq_some_iff.mp facts with ⟨result, found, facts⟩
    have ran := eq_ok_of_toOption found
    rcases of_decide_eq_true facts with ⟨two, free⟩
    have issued : IssuedProfile codexInput.profileResolution := by
      rw [codexInput]
      exact rfl
    exact ⟨result, ran, two, (precedenceReported_iff issued ran free).mpr (Nat.zero_le _)⟩
  · have facts : ((resolveGeminiCliContext plainGeminiHost pairSession).toOption.bind
        fun outcome => (resolveEffectiveContext
          ⟨[], .modelled (.geminiCli outcome.1), js "a/b/x.ts"⟩).toOption.map fun result =>
            decide (result.conflicts.map (·.precedence) = [.documentedOrder] ∧
              (geminiEffective outcome.1).length ≤ 2 ∧ ∀ first ∈ result.documents.map (·.path),
                ∀ second ∈ result.documents.map (·.path), documentId result.profileId first =
                  documentId result.profileId second → first = second)) = some true := by
      decide +kernel
    rcases Option.bind_eq_some_iff.mp facts with ⟨⟨value, reads⟩, resolved, facts⟩
    rcases Option.map_eq_some_iff.mp facts with ⟨result, found, facts⟩
    rcases of_decide_eq_true facts with ⟨precedences, two, free⟩
    have accepted := eq_ok_of_toOption resolved
    have ran := eq_ok_of_toOption found
    have issued : IssuedProfile (.modelled (.geminiCli value)) := ⟨_, _, _, accepted⟩
    exact ⟨value, reads, result, accepted, ran, precedences,
      (precedenceReported_iff issued ran free).mpr two⟩

/-- The order is total, but the first and the last file are reported without one. -/
theorem nestedSession_undefined : ∃ value reads result,
    resolveGeminiCliContext plainGeminiHost nestedSession = .ok (value, reads) ∧
    resolveEffectiveContext ⟨[], .modelled (.geminiCli value), js "a/b/x.ts"⟩ = .ok result ∧
    result.ordering = .total ∧
    result.conflicts.map (·.precedence) = [.documentedOrder, .undefined, .documentedOrder] ∧
    ¬ PrecedenceReported result := by
  have facts : ((resolveGeminiCliContext plainGeminiHost nestedSession).toOption.bind
      fun outcome => (resolveEffectiveContext
        ⟨[], .modelled (.geminiCli outcome.1), js "a/b/x.ts"⟩).toOption.map fun result =>
          decide (result.ordering = .total ∧ result.conflicts.map (·.precedence) =
            [.documentedOrder, .undefined, .documentedOrder])) = some true := by
    decide +kernel
  rcases Option.bind_eq_some_iff.mp facts with ⟨⟨value, reads⟩, resolved, facts⟩
  rcases Option.map_eq_some_iff.mp facts with ⟨result, found, facts⟩
  rcases of_decide_eq_true facts with ⟨total, precedences⟩
  refine ⟨value, reads, result, eq_ok_of_toOption resolved, eq_ok_of_toOption found, total,
    precedences, fun reported => ?_⟩
  have undefined_ : EffectiveContext.ConflictPrecedence.undefined ∈
      result.conflicts.map (·.precedence) := by
    rw [precedences]
    decide
  rcases mem_map.mp undefined_ with ⟨conflict, member, eq⟩
  exact reported.total total conflict member eq

end ProfileProjections

end AgentContextLint
