import AgentContextLint.Lib.Descent
import AgentContextLint.Lib.KeyedFold
import AgentContextLint.Resolver.IssuedResolutions

/-!
# The comparison of effective contexts is exact

For issued resolutions the comparison does not depend on their order, holds every pair of them
once, and says of the orders of each pair what is the case (`compareEffectiveContexts_exact`).

The two sequences of a pair, restricted to the paths that are included on both sides, have the
same members as soon as both orders are total (`restricted_perm`), so that the walk along the left
one finds a descent in the places of the right one exactly if they differ.
-/

namespace AgentContextLint.CrossProfile

open Utf16 Utf8 Metered Sorting List

open EffectiveContext (EffectiveContextDocument EffectiveContextResolution IdsDistinguish
  documentAt documentId pairs)
open ProfileProjections (Issued Named Sequenced nodup_ids issued_documents issued_sequence resolveEffectiveContext)

/-! ## What is to be shown -/

variable (resolution : EffectiveContextResolution)

def Includes (path : RelativePath) : Prop :=
  ∃ document ∈ resolution.documents, document.path = path ∧ scopeState document = .included

def sequencePaths (resolution : EffectiveContextResolution) : List RelativePath :=
  resolution.sequence.filterMap fun id =>
    (resolution.documents.find? (·.id = id)).map (·.path)

def restricted (common : List RelativePath) :
    List RelativePath := (sequencePaths resolution).filter (· ∈ common)

/-- The common included paths are those, and the state is that of the two orders. -/
structure OrderingExact (left right : EffectiveContextResolution)
    (ordering : CrossProfileOrderComparison) : Prop where
  distinct : ordering.commonIncludedPaths.Nodup
  common : ∀ path, path ∈ ordering.commonIncludedPaths ↔ Includes left path ∧ Includes right path
  leftWhole : left.ordering = .total →
    ∀ path ∈ ordering.commonIncludedPaths, path ∈ sequencePaths left
  rightWhole : right.ordering = .total →
    ∀ path ∈ ordering.commonIncludedPaths, path ∈ sequencePaths right
  state : 2 ≤ ordering.commonIncludedPaths.length → ordering.state =
    if left.ordering ≠ .total ∨ right.ordering ≠ .total then .unknown
    else if restricted left ordering.commonIncludedPaths ≠
      restricted right ordering.commonIncludedPaths then .different
    else .same
  witness : ordering.state = .different → ∃ witness, ordering.witness = some witness ∧
    [witness.firstPath, witness.secondPath].Sublist
      (restricted left ordering.commonIncludedPaths) ∧
    [witness.secondPath, witness.firstPath].Sublist
      (restricted right ordering.commonIncludedPaths)

/-- A pair compares two resolutions, one on each side. -/
structure Compares (left right : EffectiveContextResolution) (pair : CrossProfilePairComparison) :
    Prop where
  leftProfileId : pair.leftProfileId = profileId left
  rightProfileId : pair.rightProfileId = profileId right
  ordering : OrderingExact left right pair.ordering

/-- A pair is about two resolutions, whichever side they are on. -/
def isAbout (left right : EffectiveContextResolution) (pair : CrossProfilePairComparison) : Bool :=
  (pair.leftProfileId, pair.rightProfileId) = (profileId left, profileId right) ∨
    (pair.leftProfileId, pair.rightProfileId) = (profileId right, profileId left)

structure ComparesExactly (resolutions : List EffectiveContextResolution)
    (comparison : CrossProfileComparison) : Prop where
  sound : ∀ pair ∈ comparison.pairs, ∃ left ∈ resolutions, ∃ right ∈ resolutions,
    left ≠ right ∧ Compares left right pair
  once : ∀ left ∈ resolutions, ∀ right ∈ resolutions, left ≠ right →
    comparison.pairs.countP (isAbout left right) = 1

/-- Nothing but the size of a list of resolutions stands against comparing them. -/
structure Comparable (objects : List ResolutionObject) : Prop where
  several : 2 ≤ objects.length
  distinct : (objects.map (·.identity)).Nodup
  target : ∀ first ∈ objects, ∀ second ∈ objects,
    first.resolution.targetPath = second.resolution.targetPath
  surfaces : (objects.map fun object => surfaceKey object.resolution).Nodup

/-- The digests in the names of documents and of profiles tell them apart. -/
structure DigestsDistinguish (resolutions : List EffectiveContextResolution) : Prop where
  documents : ∀ resolution ∈ resolutions,
    IdsDistinguish resolution.profileId (resolution.documents.map (·.path))
  profiles : ∀ left ∈ resolutions, ∀ right ∈ resolutions, profileId left = profileId right →
    left.profileId = right.profileId ∧ left.surfaceId = right.surfaceId

/-! ## Documents of a resolution -/

section Documents

variable {documents : List EffectiveContextDocument} {document : EffectiveContextDocument}

theorem documentWithId_eq_some (distinct : (documents.map (·.id)).Nodup) {id : Text} :
    documentWithId documents id = some document ↔ document ∈ documents ∧ document.id = id := by
  have reversed : (documents.reverse.map (·.id)).Nodup := by
    rw [map_reverse]
    exact nodup_reverse.mpr distinct
  exact (KeyedFold.at?_eq_some reversed).trans (and_congr_left fun _ => mem_reverse)

theorem find?_id_eq (distinct : (documents.map (·.id)).Nodup) (id : Text) :
    documents.find? (·.id = id) = documentWithId documents id := by
  apply Option.ext
  intro document
  exact (KeyedFold.at?_eq_some distinct).trans (documentWithId_eq_some distinct).symm

theorem documentAt_eq_some (distinct : (documents.map (·.path)).Nodup) {path : RelativePath} :
    documentAt documents path = some document ↔ document ∈ documents ∧ document.path = path := by
  have reversed : (documents.reverse.map (·.path)).Nodup := by
    rw [map_reverse]
    exact nodup_reverse.mpr distinct
  exact (KeyedFold.at?_eq_some reversed).trans (and_congr_left fun _ => mem_reverse)

end Documents

/-! ## Profiles -/

/-- A resolution that has been issued, and whose documents have different names. -/
structure Sound (resolution : EffectiveContextResolution) : Prop where
  paths : (resolution.documents.map (·.path)).Nodup
  ids : (resolution.documents.map (·.id)).Nodup
  sequenced : Sequenced resolution.documents resolution.ordering resolution.sequence

theorem sound_of_issued {resolution : EffectiveContextResolution} (issued : Issued resolution)
    (free : IdsDistinguish resolution.profileId (resolution.documents.map (·.path))) :
    Sound resolution where
  paths := (issued_documents issued).1
  ids := nodup_ids (issued_documents issued).2 (issued_documents issued).1 free
  sequenced := issued_sequence issued free

variable {resolution left right : EffectiveContextResolution} {common : List RelativePath}
  {path : RelativePath}

def sequenceDocuments (resolution : EffectiveContextResolution) : List EffectiveContextDocument :=
  resolution.sequence.filterMap (documentWithId resolution.documents)

section

variable (sound : Sound resolution)

include sound

theorem mem_sequenceDocuments {document : EffectiveContextDocument} :
    document ∈ sequenceDocuments resolution ↔
      document ∈ resolution.documents ∧ document.id ∈ resolution.sequence := by
  unfold sequenceDocuments
  rw [mem_filterMap]
  constructor
  · intro named
    rcases named with ⟨id, member, found⟩
    rcases (documentWithId_eq_some sound.ids).mp found with ⟨inDocuments, rfl⟩
    exact ⟨inDocuments, member⟩
  · intro both
    exact ⟨document.id, both.2, (documentWithId_eq_some sound.ids).mpr ⟨both.1, rfl⟩⟩

theorem ids_sequenceDocuments :
    (sequenceDocuments resolution).map (·.id) = resolution.sequence := by
  have each : ∀ id ∈ resolution.sequence,
      (documentWithId resolution.documents id).map (·.id) = some id := by
    intro id member
    rcases mem_map.mp (sound.sequenced.inside member) with ⟨document, inDocuments, rfl⟩
    rw [(documentWithId_eq_some sound.ids).mpr ⟨inDocuments, rfl⟩]
    rfl
  rw [sequenceDocuments, map_filterMap, filterMap_congr each, filterMap_some]

theorem nodup_sequencePaths : ((sequenceDocuments resolution).map (·.path)).Nodup := by
  have distinct : ((sequenceDocuments resolution).map (·.id)).Nodup := by
    rw [ids_sequenceDocuments sound]
    exact sound.sequenced.nodup
  apply (Nodup.of_map _ distinct).map_on
  intro first inFirst second inSecond same
  exact inj_on_of_nodup_map sound.paths ((mem_sequenceDocuments sound).mp inFirst).1
    ((mem_sequenceDocuments sound).mp inSecond).1 same

theorem sequencePaths_eq :
    sequencePaths resolution = (sequenceDocuments resolution).map (·.path) := by
  unfold sequencePaths sequenceDocuments
  rw [map_filterMap]
  apply filterMap_congr
  intro id _
  rw [find?_id_eq sound.ids]

end

theorem mem_includedPaths : path ∈ includedPaths resolution ↔ Includes resolution path := by
  unfold includedPaths Includes
  rw [mem_map]
  apply exists_congr
  intro document
  rw [mem_filter, decide_eq_true_iff]
  exact ⟨fun both => ⟨both.1.1, both.2, both.1.2⟩, fun both => ⟨⟨both.1, both.2.2⟩, both.2.1⟩⟩

section

variable (sound : Sound resolution)

include sound

theorem nodup_includedSequence : (includedSequence resolution).Nodup :=
  (nodup_sequencePaths sound).sublist (filter_sublist.map _)

theorem projectProfile_eq : projectProfile resolution = .ok (profileProjection resolution) := by
  unfold projectProfile failIf refuseIf
  rw [if_neg (not_not.mpr sound.paths), if_neg (not_not.mpr (nodup_includedSequence sound))]
  rfl

/-- Of the included documents of the sequence and of all of it, the same paths are common. -/
theorem filter_includedSequence (within : ∀ path ∈ common, Includes resolution path) :
    (includedSequence resolution).filter (· ∈ common) = restricted resolution common := by
  rw [restricted, sequencePaths_eq sound, includedSequence, filter_map, filter_map, filter_filter]
  apply congrArg (map _)
  apply filter_congr
  intro document member
  have inDocuments := ((mem_sequenceDocuments sound).mp member).1
  by_cases known : document.path ∈ common
  · rcases within document.path known with ⟨other, inOther, same, included⟩
    have eq := inj_on_of_nodup_map sound.paths inOther inDocuments same
    rw [eq] at included
    simp [known, included]
  · simp [known]

theorem mem_sequencePaths_of_total (total : resolution.ordering = .total)
    (included : Includes resolution path) : path ∈ sequencePaths resolution := by
  rcases included with ⟨document, member, rfl, scope⟩
  rw [sequencePaths_eq sound]
  exact mem_map_of_mem ((mem_sequenceDocuments sound).mpr
    ⟨member, sound.sequenced.total total document member scope⟩)

theorem restricted_perm (total : resolution.ordering = .total)
    (within : ∀ path ∈ common, Includes resolution path) (distinct : common.Nodup) :
    (restricted resolution common).Perm common := by
  have apart : (restricted resolution common).Nodup := by
    rw [restricted, sequencePaths_eq sound]
    exact (nodup_sequencePaths sound).filter _
  refine (perm_ext_iff_of_nodup apart distinct).mpr fun path => ?_
  rw [restricted, mem_filter, decide_eq_true_iff]
  exact ⟨fun both => both.2,
    fun known => ⟨mem_sequencePaths_of_total sound total (within path known), known⟩⟩

end

/-! ## The witness -/

theorem rankIn_eq {sequence : List RelativePath} (distinct : sequence.Nodup) (member : path ∈ sequence) :
    rankIn sequence path = some (sequence.idxOf path) := by
  have inside := idxOf_lt_length_of_mem member
  have keys : (sequence.zipIdx.reverse.map Prod.fst).Nodup := by
    rw [map_reverse, zipIdx_map_fst]
    exact nodup_reverse.mpr distinct
  have here : (path, sequence.idxOf path) ∈ sequence.zipIdx.reverse := by
    rw [mem_reverse, mem_zipIdx_iff_getElem?, getElem?_eq_getElem inside, getElem_idxOf]
  have found := (KeyedFold.at?_eq_some keys).mpr ⟨here, rfl⟩
  unfold rankIn
  exact congrArg (Option.map Prod.snd) found

/-- A descent in the places of the right sequence. -/
def descentWitness (sequence : List RelativePath) :
    List RelativePath → Option CrossProfileOrderWitness
  | [] => none
  | first :: rest => (Descent.firstDescent sequence.idxOf first rest).map fun pair =>
    ⟨pair.1, pair.2⟩

section Steps

variable {rank : RelativePath → Option Nat} {path : RelativePath}
  {rest : List RelativePath} {found : Nat}

theorem searchWitness_first (known : rank path = some found) :
    searchWitness rank none (path :: rest) = searchWitness rank (some (found, path)) rest := by
  simp only [searchWitness, known]

theorem searchWitness_later (known : rank path = some found) (maximumRank : Nat)
    (maximumPath : RelativePath) :
    searchWitness rank (some (maximumRank, maximumPath)) (path :: rest) =
      if found < maximumRank then pure (some ⟨maximumPath, path⟩)
      else searchWitness rank (some (found, path)) rest := by
  simp only [searchWitness, known]

end Steps

variable {list sequence : List RelativePath} {α : Type}

theorem searchWitness_eq {sequence : List RelativePath} (distinct : sequence.Nodup)
    (list : List RelativePath) (known : ∀ path ∈ list, path ∈ sequence) (previous : RelativePath) :
    searchWitness (rankIn sequence) (some (sequence.idxOf previous, previous)) list =
      pure ((Descent.firstDescent sequence.idxOf previous list).map fun pair =>
        ⟨pair.1, pair.2⟩) := by
  induction list generalizing previous with
  | nil => rfl
  | cons path rest ih =>
    rw [searchWitness_later (rankIn_eq distinct (known path mem_cons_self)), Descent.firstDescent]
    split_ifs with lower
    · rfl
    · exact ih (fun other member => known other (mem_cons_of_mem path member)) path

theorem searchWitness_none {sequence : List RelativePath} (distinct : sequence.Nodup)
    {list : List RelativePath} (known : ∀ path ∈ list, path ∈ sequence) :
    searchWitness (rankIn sequence) none list = pure (descentWitness sequence list) := by
  cases list with
  | nil => rfl
  | cons path rest =>
    rw [searchWitness_first (rankIn_eq distinct (known path mem_cons_self))]
    exact searchWitness_eq distinct rest
      (fun other member => known other (mem_cons_of_mem path member)) path

theorem descentWitness_eq_none (distinct : sequence.Nodup) (same : list.Perm sequence) :
    descentWitness sequence list = none ↔ list = sequence := by
  rw [← Descent.pairwise_idxOf_iff distinct same]
  cases list with
  | nil => exact ⟨fun _ => Pairwise.nil, fun _ => rfl⟩
  | cons first rest => exact Option.map_eq_none_iff.trans Descent.firstDescent_eq_none

theorem descentWitness_eq_some (same : list.Perm sequence) {witness : CrossProfileOrderWitness}
    (found : descentWitness sequence list = some witness) :
    [witness.firstPath, witness.secondPath].Sublist list ∧
      [witness.secondPath, witness.firstPath].Sublist sequence := by
  cases list with
  | nil => cases found
  | cons first rest =>
    rcases Option.map_eq_some_iff.mp found with ⟨pair, descends, rfl⟩
    rcases Descent.firstDescent_eq_some descends with ⟨within, lower⟩
    have member : pair.1 ∈ first :: rest := within.subset mem_cons_self
    exact ⟨within, Descent.sublist_of_idxOf_lt (same.mem_iff.mp member) lower⟩

/-! ## The order of a pair -/

theorem nodup_uniqueSorted (values : List Text) : (uniqueSorted values).Nodup :=
  (nodup_sortBy _).mpr (nodup_eraseDups values)

theorem mem_uniqueSorted {values : List Text} {value : Text} :
    value ∈ uniqueSorted values ↔ value ∈ values := (mem_sortBy _).trans mem_eraseDups

def commonPaths (left right : EffectiveContextResolution) : List RelativePath :=
  commonIncludedPaths (profileProjection left) (profileProjection right)

theorem mem_commonPaths {path : RelativePath} :
    path ∈ commonPaths left right ↔ Includes left path ∧ Includes right path := by
  rw [commonPaths, commonIncludedPaths, mem_uniqueSorted, mem_filter, decide_eq_true_iff]
  exact and_congr mem_includedPaths mem_includedPaths

/-- The comparison of two orders, whatever the budget is. -/
def orderValue (left right : EffectiveContextResolution) : CrossProfileOrderComparison :=
  if (commonPaths left right).length < 2 then
    ⟨commonPaths left right, [js "fewer-than-two-common-included-paths"], .notApplicable, none⟩
  else if left.ordering ≠ .total ∨ right.ordering ≠ .total then
    ⟨commonPaths left right, uniqueSorted (orderReasons (profileProjection left)
      (profileProjection right) (commonPaths left right)), .unknown, none⟩
  else
    ⟨commonPaths left right, [],
      if descentWitness (restricted right (commonPaths left right))
        (restricted left (commonPaths left right)) = none then .same else .different,
      descentWitness (restricted right (commonPaths left right))
        (restricted left (commonPaths left right))⟩

theorem includes_left : ∀ path ∈ commonPaths left right, Includes left path :=
  fun _ member => (mem_commonPaths.mp member).1

theorem includes_right : ∀ path ∈ commonPaths left right, Includes right path :=
  fun _ member => (mem_commonPaths.mp member).2

theorem nodup_commonPaths (left right : EffectiveContextResolution) :
    (commonPaths left right).Nodup := nodup_uniqueSorted _

/-- Of sound resolutions, a sequence is never found incomplete if the order is total. -/
theorem orderReasons_eq_nil (leftSound : Sound left) (rightSound : Sound right) :
    orderReasons (profileProjection left) (profileProjection right) (commonPaths left right) = [] ↔
      left.ordering = .total ∧ right.ordering = .total := by
  have leftSame : (profileProjection left).sequencePaths.filter (· ∈ commonPaths left right) = _ :=
    filter_includedSequence leftSound includes_left
  have rightSame : (profileProjection right).sequencePaths.filter (· ∈ commonPaths left right) = _ :=
    filter_includedSequence rightSound includes_right
  unfold orderReasons
  rw [leftSame, rightSame]
  constructor
  · intro none
    simp only [append_eq_nil_iff, ite_eq_right_iff, cons_ne_nil, imp_false, not_not] at none
    exact ⟨none.1.1.1, none.1.1.2⟩
  · intro total
    have leftLength := (restricted_perm leftSound total.1 includes_left
      (nodup_commonPaths left right)).length_eq
    have rightLength := (restricted_perm rightSound total.2 includes_right
      (nodup_commonPaths left right)).length_eq
    have leftTotal : (profileProjection left).resolution.ordering = .total := total.1
    have rightTotal : (profileProjection right).resolution.ordering = .total := total.2
    rw [if_neg (not_not.mpr leftTotal), if_neg (not_not.mpr rightTotal),
      if_neg (not_not.mpr leftLength), if_neg (not_not.mpr rightLength)]
    rfl

theorem computes_compareOrdering (leftSound : Sound left) (rightSound : Sound right) :
    Computes addEvidence (compareOrdering (profileProjection left) (profileProjection right))
      (orderValue left right) := by
  unfold compareOrdering orderValue
  dsimp only
  change Computes addEvidence (if (commonPaths left right).length < 2 then _ else
    if orderReasons _ _ (commonPaths left right) ≠ [] then _ else _) _
  have reasons := orderReasons_eq_nil leftSound rightSound
  apply Computes.ite (fun _ => computes_pure _)
  intro _
  by_cases total : left.ordering = .total ∧ right.ordering = .total
  · have notOpen : ¬ (left.ordering ≠ .total ∨ right.ordering ≠ .total) := by
      rw [not_or, not_not, not_not]
      exact total
    rw [if_neg (not_not.mpr (reasons.mpr total)), if_neg notOpen]
    have leftSame : (profileProjection left).sequencePaths.filter (· ∈ commonPaths left right) = _ :=
      filter_includedSequence leftSound includes_left
    have rightSame :
        (profileProjection right).sequencePaths.filter (· ∈ commonPaths left right) = _ :=
      filter_includedSequence rightSound includes_right
    have leftPerm := restricted_perm leftSound total.1 includes_left
      (nodup_commonPaths left right)
    have rightPerm := restricted_perm rightSound total.2 includes_right
      (nodup_commonPaths left right)
    have search := searchWitness_none (rightPerm.nodup_iff.mpr (nodup_commonPaths left right))
      fun path member => rightPerm.mem_iff.mpr (leftPerm.mem_iff.mp member)
    change Computes addEvidence (searchWitness (rankIn
      ((profileProjection right).sequencePaths.filter (· ∈ commonPaths left right))) none
      ((profileProjection left).sequencePaths.filter (· ∈ commonPaths left right)) >>= _) _
    rw [leftSame, rightSame, search, pure_bind]
    exact (computes_charge _).bind (computes_pure _)
  · have isOpen : left.ordering ≠ .total ∨ right.ordering ≠ .total := by
      rwa [← not_and_or]
    rw [if_pos (fun none => total (reasons.mp none)), if_pos isOpen]
    exact (computes_charge _).bind (computes_pure _)

theorem orderValue_commonIncludedPaths (left right : EffectiveContextResolution) :
    (orderValue left right).commonIncludedPaths = commonPaths left right := by
  unfold orderValue
  split_ifs <;> rfl

theorem orderValue_exact (leftSound : Sound left) (rightSound : Sound right) :
    OrderingExact left right (orderValue left right) := by
  have paths := orderValue_commonIncludedPaths left right
  constructor
  · rw [paths]
    exact nodup_commonPaths _ _
  · intro path
    rw [paths]
    exact mem_commonPaths
  · intro total path member
    rw [paths] at member
    exact mem_sequencePaths_of_total leftSound total (includes_left path member)
  · intro total path member
    rw [paths] at member
    exact mem_sequencePaths_of_total rightSound total (includes_right path member)
  · intro enough
    rw [paths] at enough ⊢
    unfold orderValue
    rw [if_neg (Nat.not_lt.mpr enough)]
    by_cases isOpen : left.ordering ≠ .total ∨ right.ordering ≠ .total
    · rw [if_pos isOpen, if_pos isOpen]
    · rw [if_neg isOpen, if_neg isOpen]
      rw [not_or, not_not, not_not] at isOpen
      have leftPerm := restricted_perm leftSound isOpen.1 includes_left
        (nodup_commonPaths left right)
      have rightPerm := restricted_perm rightSound isOpen.2 includes_right
        (nodup_commonPaths left right)
      have found := descentWitness_eq_none (rightPerm.nodup_iff.mpr (nodup_commonPaths left right))
        (leftPerm.trans rightPerm.symm)
      by_cases same : restricted left (commonPaths left right) =
          restricted right (commonPaths left right)
      · rw [if_neg (not_not.mpr same)]
        exact if_pos (found.mpr same)
      · rw [if_pos same]
        exact if_neg fun none => same (found.mp none)
  · intro different
    rw [paths]
    unfold orderValue at different ⊢
    split_ifs at different ⊢ with _ isOpen same
    rw [not_or, not_not, not_not] at isOpen
    have leftPerm := restricted_perm leftSound isOpen.1 includes_left
      (nodup_commonPaths left right)
    have rightPerm := restricted_perm rightSound isOpen.2 includes_right
      (nodup_commonPaths left right)
    rcases Option.ne_none_iff_exists'.mp same with ⟨witness, found⟩
    exact ⟨witness, found, descentWitness_eq_some (leftPerm.trans rightPerm.symm) found⟩

/-! ## Pairs -/

theorem computes_compareContent (leftSound : Sound left) (rightSound : Sound right) :
    ∃ content, Computes addEvidence
      (compareContent (profileProjection left) (profileProjection right)) content := by
  unfold compareContent
  dsimp only
  change ∃ content, Computes addEvidence (if commonPaths left right = [] then _ else
    (commonPaths left right).foldlM (compareContentAt _ _) _ >>= _) content
  split_ifs
  · exact ⟨_, computes_pure _⟩
  · have rounds : ∀ path ∈ commonPaths left right, ∀ progress, ∃ next, Computes addEvidence
        (compareContentAt (profileProjection left) (profileProjection right) progress path)
        next := by
      intro path member progress
      rcases includes_left path member with ⟨leftDocument, inLeft, leftPath, _⟩
      rcases includes_right path member with ⟨rightDocument, inRight, rightPath, _⟩
      have leftFound : documentAt (profileProjection left).resolution.documents path = _ :=
        (documentAt_eq_some leftSound.paths).mpr ⟨inLeft, leftPath⟩
      have rightFound : documentAt (profileProjection right).resolution.documents path = _ :=
        (documentAt_eq_some rightSound.paths).mpr ⟨inRight, rightPath⟩
      unfold compareContentAt
      rw [leftFound, rightFound]
      exact ⟨_, computes_pure _⟩
    rcases exists_computes_foldlM rounds ⟨[], [], [], []⟩ with ⟨progress, ran⟩
    exact ⟨_, ran.bind ((computes_charge _).bind (computes_pure _))⟩

theorem computes_pairComparison (leftSound : Sound left) (rightSound : Sound right)
    (targetPath : RelativePath) : ∃ pair, Computes addEvidence
      (pairComparison targetPath (profileProjection left, profileProjection right)) pair ∧
        Compares left right pair := by
  rcases computes_compareContent leftSound rightSound with ⟨content, compared⟩
  have scope : Computes addEvidence
      (compareScope (profileProjection left) (profileProjection right)) _ :=
    (computes_charge _).bind (computes_pure _)
  refine ⟨_, scope.bind ((computes_compareOrdering leftSound rightSound).bind
    (compared.bind (computes_pure _))), rfl, rfl, orderValue_exact leftSound rightSound⟩

theorem pairs_map {α β : Type} (f : α → β) (list : List α) :
    pairs (list.map f) = (pairs list).map (Prod.map f f) := by
  induction list with
  | nil => rfl
  | cons first rest ih =>
    rw [map_cons, pairs, pairs, ih, map_append, map_map, map_map]
    rfl

variable {pair : α × α}

theorem mem_of_mem_pairs {list : List α} (member : pair ∈ pairs list) :
    pair.1 ∈ list ∧ pair.2 ∈ list := by
  induction list with
  | nil => cases member
  | cons first rest ih =>
    rcases mem_append.mp member with here | later
    · rcases mem_map.mp here with ⟨other, inRest, rfl⟩
      exact ⟨mem_cons_self, mem_cons_of_mem first inRest⟩
    · exact ⟨mem_cons_of_mem first (ih later).1, mem_cons_of_mem first (ih later).2⟩

/-- The sides of a pair of a list without duplicates differ. -/
theorem ne_of_mem_pairs {list : List α} (distinct : list.Nodup)
    (member : pair ∈ pairs list) : pair.1 ≠ pair.2 := by
  induction list with
  | nil => cases member
  | cons first rest ih =>
    rcases mem_append.mp member with here | later
    · rcases mem_map.mp here with ⟨other, inRest, rfl⟩
      intro eq
      have same : first = other := eq
      exact (nodup_cons.mp distinct).1 (same ▸ inRest)
    · exact ih (nodup_cons.mp distinct).2 later

section Once

variable {κ : Type} [DecidableEq κ] {a b : κ} {list : List κ}

theorem countP_head (first : κ) (rest : List κ) : (rest.map (first, ·)).countP (fun pair =>
    pair = (a, b) ∨ pair = (b, a)) =
      rest.countP fun other => (first = a ∧ other = b) ∨ (first = b ∧ other = a) := by
  rw [countP_map]
  apply countP_congr
  intro other _
  simp [Prod.ext_iff]

theorem countP_pairs_of_notMem (outside : a ∉ list) : (pairs list).countP
    (fun pair => pair = (a, b) ∨ pair = (b, a)) = 0 := by
  rw [countP_eq_zero]
  intro pair member about
  have sides := mem_of_mem_pairs member
  rcases of_decide_eq_true about with rfl | rfl
  · exact outside sides.1
  · exact outside sides.2

/-- Two members of a list without duplicates are paired once. -/
theorem countP_pairs (distinct : list.Nodup) (first : a ∈ list) (second : b ∈ list) (apart : a ≠ b) :
    (pairs list).countP (fun pair => pair = (a, b) ∨ pair = (b, a)) = 1 := by
  induction list with
  | nil => cases first
  | cons head rest ih =>
    rcases nodup_cons.mp distinct with ⟨fresh, distinctRest⟩
    rw [pairs, countP_append, countP_head]
    by_cases atFirst : head = a
    · subst atFirst
      have behind : b ∈ rest := (mem_cons.mp second).resolve_left (Ne.symm apart)
      rw [countP_pairs_of_notMem fresh]
      have one : rest.countP (fun other =>
          decide ((head = head ∧ other = b) ∨ (head = b ∧ other = head))) = rest.count b := by
        apply countP_congr
        intro other _
        simp [apart]
      rw [one, count_eq_one_of_mem distinctRest behind]
    · by_cases atSecond : head = b
      · subst atSecond
        have behind : a ∈ rest := (mem_cons.mp first).resolve_left apart
        have swap : (pairs rest).countP
            (fun pair => decide (pair = (a, head) ∨ pair = (head, a))) =
              (pairs rest).countP
                (fun pair => decide (pair = (head, a) ∨ pair = (a, head))) := by
          apply countP_congr
          intro pair _
          simp [or_comm]
        rw [swap, countP_pairs_of_notMem fresh]
        have one : rest.countP (fun other =>
            decide ((head = a ∧ other = head) ∨ (head = head ∧ other = a))) = rest.count a := by
          apply countP_congr
          intro other _
          simp [atFirst]
        rw [one, count_eq_one_of_mem distinctRest behind]
      · have none : rest.countP (fun other =>
            decide ((head = a ∧ other = b) ∨ (head = b ∧ other = a))) = 0 := by
          rw [countP_eq_zero]
          intro other _
          simp [atFirst, atSecond]
        rw [none, Nat.zero_add]
        exact ih distinctRest ((mem_cons.mp first).resolve_left (Ne.symm atFirst))
          ((mem_cons.mp second).resolve_left (Ne.symm atSecond))

end Once

/-! ## Names of profiles -/

theorem wellFormed_profileId (resolution : EffectiveContextResolution) :
    wellFormed (profileId resolution) = true := Sha256.wellFormed_append_take rfl _ _

/-- Resolutions whose names are told apart, as far as they are of different surfaces. -/
structure Separate (resolutions : List EffectiveContextResolution) : Prop where
  sound : ∀ resolution ∈ resolutions, Sound resolution
  ids : (resolutions.map profileId).Nodup

theorem separate_of_surfaces {resolutions : List EffectiveContextResolution}
    (issued : ∀ resolution ∈ resolutions, Issued resolution)
    (distinguish : DigestsDistinguish resolutions)
    (surfaces : (resolutions.map surfaceKey).Nodup) : Separate resolutions where
  sound := fun resolution member =>
    sound_of_issued (issued resolution member) (distinguish.documents resolution member)
  ids := by
    apply (Nodup.of_map _ surfaces).map_on
    intro first inFirst second inSecond same
    apply inj_on_of_nodup_map surfaces inFirst inSecond
    have named := distinguish.profiles first inFirst second inSecond same
    rw [surfaceKey, surfaceKey, named.1, named.2]

/-! ## The comparison -/

variable {resolutions : List EffectiveContextResolution} {targetPath : RelativePath}
  {error : CrossProfileComparisonError}

theorem mapM_projectProfile (sound : ∀ resolution ∈ resolutions, Sound resolution) :
    resolutions.mapM projectProfile = .ok (resolutions.map profileProjection) :=
  mapM_eq_ok_map fun resolution member => projectProfile_eq (sound resolution member)

def orderedResolutions (resolutions : List EffectiveContextResolution) :
    List EffectiveContextResolution := sortBy (comparingBytes profileId) resolutions

theorem sortBy_profileProjection (resolutions : List EffectiveContextResolution) :
    sortBy (comparingBytes (·.summary.id)) (resolutions.map profileProjection) =
      (orderedResolutions resolutions).map profileProjection :=
  (map_insertionSort (fun first second => (comparingBytes profileId first second).isLE)
    (fun first second => (comparingBytes (fun profile : ProfileProjection => profile.summary.id)
      first second).isLE) profileProjection resolutions fun _ _ _ _ => Iff.rfl).symm

theorem orderedResolutions_perm {others : List EffectiveContextResolution}
    (distinct : (resolutions.map profileId).Nodup) (perm : resolutions.Perm others) :
    orderedResolutions resolutions = orderedResolutions others := by
  apply sortBy_eq_of_perm _ _ perm
  intro first inFirst second inSecond same
  exact inj_on_of_nodup_map distinct inFirst inSecond
    (eq_of_compareBytes (wellFormed_profileId first) (wellFormed_profileId second) same)

/-- The pairs do not depend on the budget that is left for them. -/
theorem computes_pairs (separate : Separate resolutions) (targetPath : RelativePath) :
    ∃ value : ProfileProjection × ProfileProjection → CrossProfilePairComparison,
      Computes addEvidence ((pairs
        ((orderedResolutions resolutions).map profileProjection)).mapM (pairComparison targetPath))
        ((pairs
          ((orderedResolutions resolutions).map profileProjection)).map value) ∧
      ∀ left ∈ resolutions, ∀ right ∈ resolutions,
        Compares left right (value (profileProjection left, profileProjection right)) := by
  have each : ∀ pair : ProfileProjection × ProfileProjection, ∃ value,
      ∀ left ∈ resolutions, ∀ right ∈ resolutions,
        pair = (profileProjection left, profileProjection right) →
          Computes addEvidence (pairComparison targetPath pair) value ∧
            Compares left right value := by
    intro pair
    by_cases known : ∃ left ∈ resolutions, ∃ right ∈ resolutions,
      pair = (profileProjection left, profileProjection right)
    · rcases known with ⟨left, inLeft, right, inRight, rfl⟩
      rcases computes_pairComparison (separate.sound left inLeft) (separate.sound right inRight)
        targetPath with ⟨value, computes, compares⟩
      refine ⟨value, ?_⟩
      intro first _ second _ same
      have sameLeft : left = first := congrArg (·.1.resolution) same
      have sameRight : right = second := congrArg (·.2.resolution) same
      rw [← sameLeft, ← sameRight]
      exact ⟨computes, compares⟩
    · exact ⟨⟨⟨[], [], [], .same, []⟩, [], [], ⟨[], [], .same, none⟩, .divergent, [],
        ⟨[], [], .same, []⟩, .distinctSurfaceContracts⟩, fun left inLeft right inRight same =>
          absurd ⟨left, inLeft, right, inRight, same⟩ known⟩
  choose value facts using each
  refine ⟨value, Computes.mapM ?_, ?_⟩
  · intro pair member
    rw [pairs_map] at member
    rcases mem_map.mp member with ⟨⟨left, right⟩, sides, rfl⟩
    have inside := mem_of_mem_pairs sides
    exact (facts _ left ((mem_sortBy _).mp inside.1) right ((mem_sortBy _).mp inside.2) rfl).1
  · exact fun left inLeft right inRight => (facts _ left inLeft right inRight rfl).2

theorem comparesExactly_of_projected (separate : Separate resolutions)
    {comparison : CrossProfileComparison}
    (ran : compareProjected resolutions targetPath (resolutions.map profileProjection) =
      .ok comparison) : ComparesExactly resolutions comparison := by
  unfold compareProjected at ran
  rw [sortBy_profileProjection] at ran
  rcases computes_pairs separate targetPath with ⟨value, computes, compares⟩
  rcases bind_eq_ok.mp ran with ⟨pairs, counted, ran⟩
  rcases eq_ok_of_map counted with ⟨⟨listed, finish⟩, run, rfl⟩
  cases ran
  have eq := computes.eq_of_run run
  have perm : (orderedResolutions resolutions).Perm resolutions := sortBy_perm _ _
  have distinct : ((orderedResolutions resolutions).map profileId).Nodup :=
    (perm.map _).nodup_iff.mpr separate.ids
  subst eq
  rw [pairs_map, map_map]
  constructor
  · intro pair member
    rcases mem_map.mp member with ⟨⟨left, right⟩, sides, rfl⟩
    have inside := mem_of_mem_pairs sides
    have inLeft := perm.mem_iff.mp inside.1
    have inRight := perm.mem_iff.mp inside.2
    exact ⟨left, inLeft, right, inRight, ne_of_mem_pairs (Nodup.of_map _ distinct) sides,
      compares left inLeft right inRight⟩
  · intro left inLeft right inRight apart
    have idsApart : profileId left ≠ profileId right := fun same =>
      apart (inj_on_of_nodup_map separate.ids inLeft inRight same)
    have once := countP_pairs distinct (mem_map_of_mem (perm.mem_iff.mpr inLeft))
      (mem_map_of_mem (perm.mem_iff.mpr inRight)) idsApart
    rw [pairs_map, countP_map] at once
    change (map _ (pairs (orderedResolutions resolutions))).countP _ = 1
    rw [countP_map, ← once]
    apply countP_congr
    intro sides member
    have inside := mem_of_mem_pairs member
    have named := compares sides.1 (perm.mem_iff.mp inside.1) sides.2 (perm.mem_iff.mp inside.2)
    have sameLeft : (value (Prod.map profileProjection profileProjection sides)).leftProfileId = _ :=
      named.leftProfileId
    have sameRight :
        (value (Prod.map profileProjection profileProjection sides)).rightProfileId = _ :=
      named.rightProfileId
    simp only [Function.comp_apply, isAbout, decide_eq_true_eq]
    rw [sameLeft, sameRight]
    exact Iff.rfl

theorem addEvidence_error {amount before : Nat}
    (stopped : addEvidence amount before = .error error) : error.code = .resourceLimit := by
  unfold addEvidence at stopped
  split_ifs at stopped
  cases stopped
  rfl

theorem resourceLimit_of_projected (separate : Separate resolutions)
    (stopped : compareProjected resolutions targetPath (resolutions.map profileProjection) =
      .error error) : error.code = .resourceLimit := by
  unfold compareProjected at stopped
  rw [sortBy_profileProjection] at stopped
  rcases computes_pairs separate targetPath with ⟨value, computes, _⟩
  dsimp only at stopped
  cases counted : ((pairs
      ((orderedResolutions resolutions).map profileProjection)).mapM
        (pairComparison targetPath)).run' 0 with
  | ok pairs =>
    rw [counted] at stopped
    cases stopped
  | error other =>
    rw [counted] at stopped
    cases stopped
    rcases computes.charge_of_error (eq_error_of_map counted) with ⟨amount, between, charged⟩
    exact addEvidence_error charged

/-! ## The input -/

variable {objects permuted : List ResolutionObject}

def comparisonInput (objects : List ResolutionObject) : CompareEffectiveContextsInput where
  contractVersion := js "0.1.0"
  recordKind := js "agent-context-cross-profile-comparison-input"
  resolutions := objects

def ResolutionObject.IsGenuine (object : ResolutionObject) : Prop :=
  object.isIssued = true ∧ Issued object.resolution

theorem compareEffectiveContexts_eq (objects : List ResolutionObject) :
    compareEffectiveContexts (comparisonInput objects) =
      checkArray objects >>= fun _ => compareResolutions (objects.map (·.resolution)) := by
  have version : ¬ (comparisonInput objects).contractVersion ≠ js "0.1.0" := not_not.mpr rfl
  have kind : ¬ (comparisonInput objects).recordKind ≠
      js "agent-context-cross-profile-comparison-input" := not_not.mpr rfl
  unfold compareEffectiveContexts resolutionArray failIf refuseIf
  rw [if_neg version, if_neg kind, ok_bind, ok_bind, bind_assoc]
  rfl

theorem failIf_congr {p q : Prop} [Decidable p] [Decidable q] (same : p ↔ q)
    (code : CrossProfileComparisonErrorCode) (message : String) :
    failIf p code message = failIf q code message := by
  unfold failIf refuseIf
  by_cases holds : p
  · rw [if_pos holds, if_pos (same.mp holds)]
  · rw [if_neg holds, if_neg fun other => holds (same.mpr other)]

variable {condition : Prop} {code : CrossProfileComparisonErrorCode} {message : String}

theorem failIf_eq_ok [Decidable condition] {out : Unit} :
    failIf condition code message = .ok out ↔ ¬ condition := refuseIf_eq_ok

theorem checkArray_perm (perm : permuted.Perm objects) : checkArray permuted = checkArray objects := by
  unfold checkArray
  rw [perm.length_eq, failIf_congr (exists_congr fun _ => and_congr_left fun _ => perm.mem_iff),
    failIf_congr (not_congr (perm.map _).nodup_iff)]

section Permuted

variable {others : List EffectiveContextResolution}

theorem checkResolutions_perm (perm : others.Perm resolutions) :
    checkResolutions others targetPath = checkResolutions resolutions targetPath := by
  have documents : aggregateDocuments others = aggregateDocuments resolutions :=
    (perm.map _).sum_eq
  have ambiguities : aggregateAmbiguities others = aggregateAmbiguities resolutions :=
    (perm.map _).sum_eq
  unfold checkResolutions
  rw [documents, ambiguities, perm.length_eq,
    failIf_congr (exists_congr fun _ => and_congr_left fun _ => perm.mem_iff),
    failIf_congr (not_congr (perm.map _).nodup_iff)]

theorem compareProjected_perm (separate : Separate resolutions) (perm : others.Perm resolutions) :
    compareProjected others targetPath (others.map profileProjection) =
      compareProjected resolutions targetPath (resolutions.map profileProjection) := by
  have sameOrder := orderedResolutions_perm separate.ids perm.symm
  have results (profiles : List ProfileProjection) (pairs : List CrossProfilePairComparison) :
      comparison others targetPath profiles pairs =
        comparison resolutions targetPath profiles pairs := by
    unfold comparison
    have same : (∃ resolution ∈ others, resolution.analysisIsComplete = false) ↔
        ∃ resolution ∈ resolutions, resolution.analysisIsComplete = false :=
      exists_congr fun _ => and_congr_left fun _ => perm.mem_iff
    rw [decide_eq_decide.mpr (not_congr (or_congr_left same))]
  unfold compareProjected
  rw [sortBy_profileProjection, sortBy_profileProjection, ← sameOrder]
  dsimp only
  simp only [results]

theorem targetOf_eq (one : ∀ resolution ∈ resolutions, resolution.targetPath = targetPath)
    (several : resolutions ≠ []) : targetOf resolutions = .ok targetPath := by
  cases resolutions with
  | nil => exact absurd rfl several
  | cons first rest =>
    rw [targetOf, one first mem_cons_self]

theorem compareResolutions_mixed (several : resolutions ≠ [])
    (mixed : ¬ ∃ targetPath, ∀ resolution ∈ resolutions, resolution.targetPath = targetPath) :
    compareResolutions resolutions = .error ⟨.invalidRelationship,
      "cross-profile resolutions must describe one exact target path"⟩ := by
  cases resolutions with
  | nil => exact absurd rfl several
  | cons first rest =>
    have differs : ∃ resolution ∈ first :: rest, resolution.targetPath ≠ first.targetPath := by
      by_contra none
      push Not at none
      exact mixed ⟨first.targetPath, none⟩
    unfold compareResolutions checkResolutions
    rw [targetOf, ok_bind, failIf, refuseIf, if_pos differs]
    rfl

theorem surfaces_of_checked (checked : checkResolutions resolutions targetPath = .ok ()) :
    (resolutions.map surfaceKey).Nodup := by
  unfold checkResolutions at checked
  rcases check_bind_eq_ok.mp checked with ⟨_, checked⟩
  exact not_not.mp (failIf_eq_ok.mp (check_bind_eq_ok.mp checked).1)

theorem compareResolutions_checked (several : resolutions ≠ [])
    (one : ∀ resolution ∈ resolutions, resolution.targetPath = targetPath)
    (checked : checkResolutions resolutions targetPath = .ok ())
    (sound : ∀ resolution ∈ resolutions, Sound resolution) :
    compareResolutions resolutions =
      compareProjected resolutions targetPath (resolutions.map profileProjection) := by
  unfold compareResolutions
  rw [targetOf_eq one several, ok_bind, checked, ok_bind, mapM_projectProfile sound, ok_bind]

theorem compareResolutions_perm (issued : ∀ resolution ∈ resolutions, Issued resolution)
    (distinguish : DigestsDistinguish resolutions) (several : resolutions ≠ [])
    (perm : others.Perm resolutions) : compareResolutions others = compareResolutions resolutions := by
  have alsoSeveral : others ≠ [] := fun none => several (nil_perm.mp (none ▸ perm))
  by_cases target : ∃ targetPath, ∀ resolution ∈ resolutions, resolution.targetPath = targetPath
  · rcases target with ⟨targetPath, one⟩
    have alsoOne : ∀ resolution ∈ others, resolution.targetPath = targetPath :=
      fun resolution member => one resolution (perm.mem_iff.mp member)
    have sameChecks : checkResolutions others targetPath = checkResolutions resolutions targetPath :=
      checkResolutions_perm perm
    cases checked : checkResolutions resolutions targetPath with
    | error error =>
      unfold compareResolutions
      rw [targetOf_eq one several, targetOf_eq alsoOne alsoSeveral, ok_bind, ok_bind, sameChecks,
        checked]
      rfl
    | ok _ =>
      have separate := separate_of_surfaces issued distinguish (surfaces_of_checked checked)
      rw [compareResolutions_checked several one checked separate.sound,
        compareResolutions_checked alsoSeveral alsoOne (sameChecks.trans checked)
          fun resolution member => separate.sound resolution (perm.mem_iff.mp member)]
      exact compareProjected_perm separate perm
  · have alsoMixed : ¬ ∃ targetPath, ∀ resolution ∈ others, resolution.targetPath = targetPath := by
      intro one
      rcases one with ⟨targetPath, one⟩
      exact target ⟨targetPath, fun resolution member => one resolution (perm.mem_iff.mpr member)⟩
    rw [compareResolutions_mixed several target, compareResolutions_mixed alsoSeveral alsoMixed]

end Permuted

variable {error : CrossProfileComparisonError}

/-! ## The comparison of issued resolutions -/

theorem checkArray_eq_ok (checked : checkArray objects = .ok ()) :
    2 ≤ objects.length ∧ (objects.map (·.identity)).Nodup := by
  unfold checkArray at checked
  rcases check_bind_eq_ok.mp checked with ⟨several, checked⟩
  rcases check_bind_eq_ok.mp checked with ⟨_, checked⟩
  rcases check_bind_eq_ok.mp checked with ⟨_, distinct⟩
  exact ⟨Nat.not_lt.mp (failIf_eq_ok.mp several), not_not.mp (failIf_eq_ok.mp distinct)⟩

theorem failIf_eq_error [Decidable condition]
    (failed : failIf condition code message = .error error) : condition ∧ error.code = code := by
  unfold failIf refuseIf at failed
  split_ifs at failed with holds
  cases failed
  exact ⟨holds, rfl⟩

/-- A check in front of a program is where it fails, or behind it. -/
theorem error_cases {α : Type} {check : Except CrossProfileComparisonError Unit}
    {next : Unit → Except CrossProfileComparisonError α} (failed : (check >>= next) = .error error)
    : check = .error error ∨ (check = .ok () ∧ next () = .error error) := by
  cases check with
  | error other =>
    cases failed
    exact .inl rfl
  | ok _ => exact .inr ⟨rfl, failed⟩

theorem checkArray_error (genuine : ∀ object ∈ objects, object.IsGenuine) (failed : checkArray objects = .error error) :
    error.code = .resourceLimit ∨ ¬ Comparable objects := by
  unfold checkArray at failed
  rcases error_cases failed with few | ⟨_, failed⟩
  · exact .inr fun comparable => absurd comparable.several
      (Nat.not_le.mpr (failIf_eq_error few).1)
  · rcases error_cases failed with many | ⟨_, failed⟩
    · exact .inl (failIf_eq_error many).2
    · rcases error_cases failed with foreign | ⟨_, repeated⟩
      · rcases (failIf_eq_error foreign).1 with ⟨object, member, notIssued⟩
        rw [(genuine object member).1] at notIssued
        cases notIssued
      · exact .inr fun comparable => (failIf_eq_error repeated).1 comparable.distinct

theorem checkResolutions_error
    (one : ∀ resolution ∈ resolutions, resolution.targetPath = targetPath)
    (surfaces : (resolutions.map surfaceKey).Nodup)
    (failed : checkResolutions resolutions targetPath = .error error) :
    error.code = .resourceLimit := by
  unfold checkResolutions at failed
  rcases error_cases failed with several | ⟨_, failed⟩
  · rcases (failIf_eq_error several).1 with ⟨resolution, member, differs⟩
    exact absurd (one resolution member) differs
  · rcases error_cases failed with same | ⟨_, failed⟩
    · exact absurd surfaces (failIf_eq_error same).1
    · rcases error_cases failed with documents | ⟨_, failed⟩
      · exact (failIf_eq_error documents).2
      · rcases error_cases failed with ambiguities | ⟨_, work⟩
        · exact (failIf_eq_error ambiguities).2
        · exact (failIf_eq_error work).2

/-- The comparison of issued resolutions does not depend on their order, is exact, and fails for
their size only if they can be compared. -/
theorem compareEffectiveContexts_exact (objects : List ResolutionObject)
    (genuine : ∀ object ∈ objects, object.IsGenuine)
    (distinguish : DigestsDistinguish (objects.map (·.resolution))) :
    (∀ permuted : List ResolutionObject, permuted.Perm objects →
      compareEffectiveContexts (comparisonInput permuted) =
        compareEffectiveContexts (comparisonInput objects)) ∧
    (∀ comparison, compareEffectiveContexts (comparisonInput objects) = .ok comparison →
      ComparesExactly (objects.map (·.resolution)) comparison) ∧
    ∀ error, compareEffectiveContexts (comparisonInput objects) = .error error →
      error.code = .resourceLimit ∨ ¬ Comparable objects := by
  have issued : ∀ resolution ∈ objects.map (·.resolution), Issued resolution := by
    intro resolution member
    rcases mem_map.mp member with ⟨object, inObjects, rfl⟩
    exact (genuine object inObjects).2
  have nonempty (checked : checkArray objects = .ok ()) : objects.map (·.resolution) ≠ [] := by
    intro none
    have several := (checkArray_eq_ok checked).1
    rw [map_eq_nil_iff.mp none] at several
    exact absurd several (by decide)
  rw [compareEffectiveContexts_eq]
  refine ⟨?_, ?_, ?_⟩
  · intro permuted perm
    rw [compareEffectiveContexts_eq, checkArray_perm perm]
    cases checked : checkArray objects with
    | error error => rfl
    | ok _ => exact compareResolutions_perm issued distinguish (nonempty checked) (perm.map _)
  · intro comparison ran
    rcases check_bind_eq_ok.mp ran with ⟨checked, compared⟩
    by_cases target : ∃ targetPath, ∀ resolution ∈ objects.map (·.resolution),
      resolution.targetPath = targetPath
    · rcases target with ⟨targetPath, one⟩
      have passed : checkResolutions (objects.map (·.resolution)) targetPath = .ok () := by
        unfold compareResolutions at compared
        rw [targetOf_eq one (nonempty checked), ok_bind] at compared
        exact (check_bind_eq_ok.mp compared).1
      have separate := separate_of_surfaces issued distinguish (surfaces_of_checked passed)
      rw [compareResolutions_checked (nonempty checked) one passed separate.sound] at compared
      exact comparesExactly_of_projected separate compared
    · rw [compareResolutions_mixed (nonempty checked) target] at compared
      cases compared
  · intro error failed
    rcases error_cases failed with unchecked | ⟨checked, failed⟩
    · exact checkArray_error genuine unchecked
    · by_cases comparable : Comparable objects
      · left
        have surfaces : ((objects.map (·.resolution)).map surfaceKey).Nodup := by
          rw [map_map]
          exact comparable.surfaces
        have separate := separate_of_surfaces issued distinguish surfaces
        rcases exists_mem_of_ne_nil _ (nonempty checked) with ⟨first, inFirst⟩
        have one : ∀ resolution ∈ objects.map (·.resolution),
            resolution.targetPath = first.targetPath := by
          intro resolution member
          rcases mem_map.mp member with ⟨object, inObjects, rfl⟩
          rcases mem_map.mp inFirst with ⟨other, alsoIn, rfl⟩
          exact comparable.target object inObjects other alsoIn
        cases passed : checkResolutions (objects.map (·.resolution)) first.targetPath with
        | error other =>
          have same : compareResolutions (objects.map (·.resolution)) = .error other := by
            unfold compareResolutions
            rw [targetOf_eq one (nonempty checked), ok_bind, passed]
            rfl
          rw [same] at failed
          cases failed
          exact checkResolutions_error one surfaces passed
        | ok _ =>
          rw [compareResolutions_checked (nonempty checked) one passed separate.sound] at failed
          exact resourceLimit_of_projected separate failed
      · exact .inr comparable

/-! ## Two files that are loaded in opposite orders -/

def sharedTarget : RelativePath := js "src/a.ts"

def sharedFiles : List RelativePath := [js "AGENTS.md", js "src/AGENTS.md"]

def codexSelection (path : RelativePath) : ProfileProjections.CodexCliSelectedDocument :=
  ⟨some 1, 1, path, .included, false⟩

def codexInput : ProfileProjections.ResolveEffectiveContextInput where
  importDags := []
  profileResolution := .codexCli {
    analysisIsPartial := false
    assembledText := js "x"
    candidateDecisions := sharedFiles.map fun path => ⟨some .file, path, .selected⟩
    contributions := sharedFiles.map fun path => ⟨path, none, js "x"⟩
    externalContext := .none
    profile := ⟨some (js "0.146.0"), js "0.1.0", js "codex-cli", js "codex-cli/0.146.0/2026-08-01",
      js "codex-cli/local-cli-single-cwd"⟩
    selected := sharedFiles.map codexSelection
    semanticPrecedence := js "root-to-cwd-later-text-winner-unknown"
    targetPath := sharedTarget }
  targetPath := sharedTarget

def geminiInput : ProfileProjections.ResolveEffectiveContextInput where
  importDags := []
  profileResolution := .modelled (.geminiCli {
    analysisIsPartial := false
    documents := sharedFiles.reverse.map fun path => ⟨js "launch", [], none, path, .static, true, none⟩
    events := []
    externalContext := .explicitSynthetic
    issues := []
    loadedPaths := sharedFiles
    settings := ⟨[], true, ⟨200, [js "AGENTS.md"], .tree, [], false, []⟩⟩
    staticPaths := sharedFiles
    trustState := .trusted
    workspaceRoots := [RepositoryPath.repositoryRoot] })
  targetPath := sharedTarget

/-- The two resolutions, as objects of the process. -/
def sharedObjects (codex gemini : EffectiveContextResolution) : List ResolutionObject :=
  [⟨0, true, codex⟩, ⟨1, true, gemini⟩]

theorem exists_sharedObjects : ∃ codex gemini comparison,
    resolveEffectiveContext codexInput = .ok codex ∧
    resolveEffectiveContext geminiInput = .ok gemini ∧
    compareEffectiveContexts (comparisonInput (sharedObjects codex gemini)) = .ok comparison ∧
    comparison.pairs.map (·.ordering.state) = [.different] ∧
    DigestsDistinguish [codex, gemini] := by
  have facts : ((resolveEffectiveContext codexInput).toOption.bind fun codex =>
      (resolveEffectiveContext geminiInput).toOption.bind fun gemini =>
        (compareEffectiveContexts (comparisonInput (sharedObjects codex gemini))).toOption.map
          fun comparison => decide (comparison.pairs.map (·.ordering.state) = [.different] ∧
            (∀ resolution ∈ [codex, gemini], ∀ first ∈ resolution.documents.map (·.path),
              ∀ second ∈ resolution.documents.map (·.path),
                documentId resolution.profileId first =
                  documentId resolution.profileId second → first = second) ∧
            profileId codex ≠ profileId gemini)) = some true := by
    decide +kernel
  rcases Option.bind_eq_some_iff.mp facts with ⟨codex, codexRan, facts⟩
  rcases Option.bind_eq_some_iff.mp facts with ⟨gemini, geminiRan, facts⟩
  rcases Option.map_eq_some_iff.mp facts with ⟨comparison, compared, facts⟩
  rcases of_decide_eq_true facts with ⟨states, documents, apart⟩
  refine ⟨codex, gemini, comparison, ?_, ?_, ?_, states, documents, ?_⟩
  · exact eq_ok_of_toOption codexRan
  · exact eq_ok_of_toOption geminiRan
  · exact eq_ok_of_toOption compared
  · intro left inLeft right inRight same
    rcases mem_pair.mp inLeft with rfl | rfl
    · rcases mem_pair.mp inRight with rfl | rfl
      · exact ⟨rfl, rfl⟩
      · exact absurd same apart
    · rcases mem_pair.mp inRight with rfl | rfl
      · exact absurd same.symm apart
      · exact ⟨rfl, rfl⟩

/-- The comparison of the two, which their orders tell apart. -/
theorem compareEffectiveContexts_exact_shared : ∃ codex gemini comparison,
    compareEffectiveContexts (comparisonInput (sharedObjects codex gemini)) = .ok comparison ∧
    comparison.pairs.map (·.ordering.state) = [.different] ∧
    ComparesExactly [codex, gemini] comparison := by
  rcases exists_sharedObjects with
    ⟨codex, gemini, comparison, codexRan, geminiRan, compared, states, distinguish⟩
  refine ⟨codex, gemini, comparison, compared, states, ?_⟩
  refine (compareEffectiveContexts_exact (sharedObjects codex gemini) ?_ distinguish).2.1
    comparison compared
  intro object member
  rcases mem_pair.mp member with rfl | rfl
  · exact ⟨rfl, codexInput, codexRan⟩
  · exact ⟨rfl, geminiInput, geminiRan⟩

end AgentContextLint.CrossProfile
