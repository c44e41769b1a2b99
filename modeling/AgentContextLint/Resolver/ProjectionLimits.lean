import AgentContextLint.Resolver.EffectiveContext

/-!
# When a projection is accepted

What `resolveEffectiveContext` demands of the projection of a profile, without import graphs:
distinct paths, and numbers of conflicts and ambiguities within the limits
(`resolveEffectiveContext_eq_ok`). `addAmbiguities` fails exactly if the requests have more
identifiers than the limit.
-/

namespace AgentContextLint.EffectiveContext

open Utf16 Utf8 Metered Sorting List

theorem failIf_eq_ok {condition : Prop} [Decidable condition] {code : EffectiveContextErrorCode}
    {message : String} {out : Unit} : failIf condition code message = .ok out ↔ ¬ condition :=
  refuseIf_eq_ok

/-- The identifiers of documents tell some paths apart. -/
def IdsDistinguish (profileId : Text) (paths : List RelativePath) : Prop :=
  ∀ first ∈ paths, ∀ second ∈ paths,
    documentId profileId first = documentId profileId second → first = second

/-! ## Ambiguities -/

def distinctAmbiguities (asked : List AmbiguityRequest) : Nat :=
  (asked.map (·.ambiguity.id)).toFinset.card

/-- The ambiguities are those asked for so far, each once. -/
structure Kept (output : List EffectiveContextAmbiguity) (asked : List AmbiguityRequest) :
    Prop where
  nodup : (output.map (·.id)).Nodup
  ids : ∀ id, id ∈ output.map (·.id) ↔ id ∈ asked.map (·.ambiguity.id)
  bounded : output.length ≤ maximumAmbiguities

theorem Kept.nil : Kept [] [] where
  nodup := nodup_nil
  ids := fun _ => Iff.rfl
  bounded := Nat.zero_le _

variable {output out : List EffectiveContextAmbiguity} {asked requests : List AmbiguityRequest}
  {request : AmbiguityRequest}

theorem Kept.length_eq (kept : Kept output asked) : output.length = distinctAmbiguities asked := by
  have same : (output.map (·.id)).toFinset = (asked.map (·.ambiguity.id)).toFinset := by
    ext id
    rw [mem_toFinset, mem_toFinset]
    exact kept.ids id
  rw [distinctAmbiguities, ← same, toFinset_card_of_nodup kept.nodup, length_map]

theorem distinctAmbiguities_le_append (asked more : List AmbiguityRequest) :
    distinctAmbiguities asked ≤ distinctAmbiguities (asked ++ more) := by
  apply Finset.card_le_card
  intro id member
  rw [mem_toFinset] at member ⊢
  rw [map_append]
  exact mem_append_left _ member

theorem Kept.add (kept : Kept output asked) (ran : addAmbiguity output request = .ok out) :
    Kept out (asked ++ [request]) := by
  unfold addAmbiguity at ran
  dsimp only at ran
  split_ifs at ran with known
  · cases ran
    refine ⟨kept.nodup, fun id => ?_, kept.bounded⟩
    rw [map_append, mem_append, ← kept.ids id, map_singleton, mem_singleton]
    constructor
    · exact Or.inl
    · intro either
      rcases either with old | rfl
      · exact old
      · exact known
  · simp only [check_bind_eq_ok, failIf_eq_ok, pure, Except.pure, Except.ok.injEq] at ran
    rcases ran with ⟨room, rfl⟩
    constructor
    · rw [map_append, map_singleton, ← concat_eq_append]
      exact kept.nodup.concat known
    · intro id
      rw [map_append, map_append, mem_append, mem_append, kept.ids id]
      rfl
    · rw [length_append, length_singleton]
      omega

theorem Kept.addAll (kept : Kept output asked) (ran : addAmbiguities output requests = .ok out) :
    Kept out (asked ++ requests) := by
  induction requests generalizing output asked with
  | nil =>
    cases ran
    rwa [append_nil]
  | cons request rest ih =>
    rw [addAmbiguities, foldlM_cons] at ran
    rcases bind_eq_ok.mp ran with ⟨next, first, later⟩
    have whole := ih (kept.add first) later
    rwa [append_assoc] at whole

theorem addAmbiguities_append : addAmbiguities output (asked ++ requests) = .ok out ↔
    ∃ next, addAmbiguities output asked = .ok next ∧ addAmbiguities next requests = .ok out := by
  unfold addAmbiguities
  rw [foldlM_append, bind_eq_ok]

/-- What the requests ask for is at most what the limit admits. -/
theorem Kept.distinct_le (kept : Kept output asked) :
    distinctAmbiguities asked ≤ maximumAmbiguities := kept.length_eq ▸ kept.bounded

theorem Kept.exists_add (kept : Kept output asked)
    (room : distinctAmbiguities (asked ++ [request]) ≤ maximumAmbiguities) :
    ∃ out, addAmbiguity output request = .ok out := by
  unfold addAmbiguity
  dsimp only
  split_ifs with known
  · exact ⟨output, rfl⟩
  · have grown : distinctAmbiguities (asked ++ [request]) = output.length + 1 := by
      rw [kept.length_eq, distinctAmbiguities, distinctAmbiguities, map_append,
        toFinset_append, map_singleton]
      apply (Finset.card_union_of_disjoint _).trans
      · rfl
      · apply Finset.disjoint_singleton_right.mpr
        rw [mem_toFinset, ← kept.ids]
        exact known
    refine ⟨output ++ [request.ambiguity], check_bind_eq_ok.mpr ⟨failIf_eq_ok.mpr ?_, rfl⟩⟩
    omega

theorem Kept.exists_addAll (kept : Kept output asked)
    (room : distinctAmbiguities (asked ++ requests) ≤ maximumAmbiguities) :
    ∃ out, addAmbiguities output requests = .ok out := by
  induction requests generalizing output asked with
  | nil => exact ⟨output, rfl⟩
  | cons request rest ih =>
    have split : asked ++ request :: rest = asked ++ [request] ++ rest := by
      rw [append_assoc, singleton_append]
    rw [split] at room
    rcases kept.exists_add ((distinctAmbiguities_le_append _ rest).trans room) with ⟨next, first⟩
    rcases ih (kept.add first) room with ⟨out, later⟩
    exact ⟨out, bind_eq_ok.mpr ⟨next, first, later⟩⟩

/-! ## The resolver -/

section Resolver

variable {profile : EffectiveContextProfileResolution} {documents : List EffectiveContextDocument}
  {precedence : List EffectiveContextPrecedence} {profileId : Text}
  {targetPath : RelativePath} {result : EffectiveContextResolution}

theorem length_pairs {α : Type} (list : List α) : (pairs list).length = list.length.choose 2 := by
  induction list with
  | nil => rfl
  | cons first rest ih =>
    rw [pairs, length_append, length_map, ih, length_cons, Nat.choose_succ_succ',
      Nat.choose_one_right]

theorem conflicts_eq_ok {out : List EffectiveContextConflictOpportunity} :
    conflicts documents precedence profileId = .ok out ↔
      (opposed documents).length ≤ maximumConflicts ∧
        out = (opposed documents).map (conflictOf precedence profileId) := by
  unfold conflicts
  rw [check_bind_eq_ok, failIf_eq_ok]
  exact and_congr Nat.not_lt ⟨fun eq => (Except.ok.inj eq).symm, fun eq => congrArg Except.ok eq.symm⟩

def laterRequests (profile : EffectiveContextProfileResolution) (projection : Projection) :
    List AmbiguityRequest :=
  ((opposed projection.documents).map
    (conflictOf projection.precedence projection.profileId)).flatMap conflictAmbiguities ++
  profileAmbiguities profile.analysisIsPartial projection.profileId

/-- A run without import graphs. -/
theorem resolveEffectiveContext_eq_ok :
    resolveEffectiveContext ⟨[], profile, targetPath⟩ = .ok result ↔
      RepositoryPath.isRepositoryRelativePath targetPath = true ∧
      ∃ projection, project profile = .ok projection ∧
        projection.documents.length ≤ maximumDocuments ∧
        (projection.documents.map (·.path)).Nodup ∧
        (opposed projection.documents).length ≤ maximumConflicts ∧
        ∃ ambiguities, addAmbiguities projection.ambiguities (laterRequests profile projection) =
            .ok ambiguities ∧
          result = resolution targetPath projection []
            ((opposed projection.documents).map
              (conflictOf projection.precedence projection.profileId)) ambiguities := by
  unfold resolveEffectiveContext resolveProjection laterRequests
  constructor
  · intro ran
    rcases check_bind_eq_ok.mp ran with ⟨target, ran⟩
    rcases bind_eq_ok.mp ran with ⟨projection, projects, ran⟩
    rcases check_bind_eq_ok.mp ran with ⟨few, ran⟩
    rcases check_bind_eq_ok.mp ran with ⟨apart, ran⟩
    rcases check_bind_eq_ok.mp ran with ⟨_, ran⟩
    rcases bind_eq_ok.mp ran with ⟨imported, none, ran⟩
    cases none
    rcases bind_eq_ok.mp ran with ⟨opposing, conflicting, ran⟩
    rcases conflicts_eq_ok.mp conflicting with ⟨fits, rfl⟩
    rcases bind_eq_ok.mp ran with ⟨second, more, ran⟩
    rcases bind_eq_ok.mp ran with ⟨last, final, ran⟩
    cases ran
    exact ⟨not_not.mp (failIf_eq_ok.mp target), projection, projects,
      Nat.not_lt.mp (failIf_eq_ok.mp few), not_not.mp (failIf_eq_ok.mp apart), fits, last,
      addAmbiguities_append.mpr ⟨second, more, final⟩, rfl⟩
  · intro conditions
    rcases conditions with ⟨target, projection, projects, few, apart, fits, last, requested, rfl⟩
    rcases addAmbiguities_append.mp requested with ⟨second, more, final⟩
    apply check_bind_eq_ok.mpr ⟨failIf_eq_ok.mpr (not_not.mpr target), _⟩
    apply bind_eq_ok.mpr ⟨projection, projects, _⟩
    apply check_bind_eq_ok.mpr ⟨failIf_eq_ok.mpr (Nat.not_lt.mpr few), _⟩
    apply check_bind_eq_ok.mpr ⟨failIf_eq_ok.mpr (not_not.mpr apart), _⟩
    apply check_bind_eq_ok.mpr ⟨rfl, _⟩
    apply bind_eq_ok.mpr ⟨_, rfl, _⟩
    apply bind_eq_ok.mpr ⟨_, conflicts_eq_ok.mpr ⟨fits, rfl⟩, _⟩
    exact bind_eq_ok.mpr ⟨second, more, bind_eq_ok.mpr ⟨last, final, rfl⟩⟩

end Resolver

end AgentContextLint.EffectiveContext
