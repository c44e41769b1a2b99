import AgentContextLint.Evidence.NearClusterExactness
import AgentContextLint.Lib.PrefixFilter
import Mathlib.Algebra.Order.Floor.Div

/-!
# The edges between near duplicates

`nearEdges` looks for the records that have an anchor in common with one of the records before them.

* The support of a shingle is the number of eligible records that have it (`supportOf_countSupport`).
* Behind each round the postings are those of the records so far, and the edges are the ones between
  them (`Searched`), so that at the end the edges are those that are `Reported`, each once.
* Two eligible records that are similar enough have an anchor in common, if no anchor is left out for
  its postings and there is room for enough anchors (`reported_of_similar`).
-/

namespace AgentContextLint.DuplicationIndex

open Utf16 Metered Sorting List

variable {records : List UniqueTextRecord} {limits : DuplicationIndexLimits}
  {record : UniqueTextRecord} {left right : List Text} {state next : NearState} (support : Support)

/-! ## Support -/

theorem supportOf_countShingle (shingle asked : Text) :
    supportOf (countShingle support shingle) asked =
      supportOf support asked + if asked = shingle then 1 else 0 := by
  rw [countShingle, supportOf, OrderedMap.get?_set]
  split_ifs with same other
  · rw [Option.getD_some, same]
  · exact absurd same.symm other
  · exact absurd (Eq.symm ‹_›) same
  · rfl

theorem supportOf_foldl {shingles : List Text} (distinct : shingles.Nodup) (support : Support)
    (asked : Text) : supportOf (shingles.foldl countShingle support) asked =
      supportOf support asked + if asked ∈ shingles then 1 else 0 := by
  induction shingles generalizing support with
  | nil => rfl
  | cons shingle rest ih =>
    rcases nodup_cons.mp distinct with ⟨fresh, later⟩
    rw [foldl_cons, ih later, supportOf_countShingle, Nat.add_assoc]
    congr 1
    by_cases same : asked = shingle
    · rw [if_pos same, if_neg (same ▸ fresh), if_pos (same ▸ mem_cons_self)]
    · rw [if_neg same, Nat.zero_add]
      simp only [mem_cons, same, false_or]

def supports (limits : DuplicationIndexLimits) (shingle : Text) (record : UniqueTextRecord) :
    Bool := isEligible limits record && shingle ∈ record.shingles

theorem supportOf_countSupport (distinct : ∀ record ∈ records, record.shingles.Nodup) (asked : Text) :
    supportOf (countSupport records limits) asked = records.countP (supports limits asked) := by
  have from_ : ∀ support, supportOf (records.foldl (countRecord limits) support) asked =
      supportOf support asked + records.countP (supports limits asked) := by
    induction records with
    | nil => exact fun _ => rfl
    | cons record rest ih =>
      intro support
      rw [foldl_cons, ih fun other member => distinct other (mem_cons_of_mem _ member),
        countP_cons, countRecord, supports]
      by_cases eligible : isEligible limits record
      · rw [if_pos eligible, supportOf_foldl (distinct record mem_cons_self), eligible]
        simp only [Bool.true_and, decide_eq_true_eq]
        rw [Nat.add_right_comm, Nat.add_assoc]
      · rw [if_neg eligible, Bool.eq_false_of_not_eq_true eligible]
        rfl
  rw [countSupport, from_]
  exact Nat.zero_add _

instance (support : Support) : Std.TransCmp (compareSupport support) :=
  inferInstanceAs (Std.TransCmp (compareLex (comparingWith compare (supportOf support)) compareUnits))

theorem eq_of_compareSupport (left right : Text)
    (tie : compareSupport support left right = .eq) : left = right := by
  rw [compareSupport, Ordering.then_eq_eq] at tie
  exact compareUnits_eq_iff.mp tie.2

/-! ## Anchors -/

/-- The anchors of the record at an index; of a record that is not eligible, none. -/
def anchorsAt (records : List UniqueTextRecord) (limits : DuplicationIndexLimits) (index : Nat) :
    List Text :=
  (records[index]?.map fun record => if isEligible limits record then
    selectedAnchors record (countSupport records limits) limits else []).getD []

/-- The edges that are found: between records with an anchor in common, from the first to the
second, if they are similar enough. -/
structure Reported (records : List UniqueTextRecord) (limits : DuplicationIndexLimits)
    (edge : RecordEdge) : Prop where
  forward : edge.left < edge.right
  anchored : ∃ anchor ∈ anchorsAt records limits edge.left, anchor ∈ anchorsAt records limits edge.right
  near : IsNearEdge records edge
  similar : limits.minimumSimilarityBasisPoints ≤ edge.value.similarityBasisPoints

theorem mem_candidatesOf {postings : Postings} {anchors : List Text} {index : Nat} :
    index ∈ candidatesOf postings anchors ↔ ∃ anchor ∈ anchors, index ∈ postings.members anchor := by
  rw [candidatesOf, mem_sortBy, mem_eraseDups, mem_flatMap]
  rfl

theorem nodup_candidatesOf (postings : Postings) (anchors : List Text) :
    (candidatesOf postings anchors).Nodup := (nodup_sortBy _).mpr (nodup_eraseDups _)

/-- What a comparison adds. -/
def candidateEdge (records : List UniqueTextRecord) (limits : DuplicationIndexLimits)
    (record : UniqueTextRecord) (right left : Nat) : Option RecordEdge :=
  records[left]?.bind fun leftRecord =>
    let value := nearEdge leftRecord record
    if value.similarityBasisPoints < limits.minimumSimilarityBasisPoints then none
    else some ⟨left, right, value⟩

theorem candidateEdge_eq_some {right left : Nat} {edge : RecordEdge} :
    candidateEdge records limits record right left = some edge ↔
      ∃ leftRecord, records[left]? = some leftRecord ∧ edge = ⟨left, right, nearEdge leftRecord record⟩ ∧
        limits.minimumSimilarityBasisPoints ≤ edge.value.similarityBasisPoints := by
  rw [candidateEdge, Option.bind_eq_some_iff]
  refine exists_congr fun leftRecord => and_congr_right fun _ => ?_
  dsimp only
  split_ifs with low
  · refine iff_of_false not_false fun both => ?_
    rcases both with ⟨rfl, high⟩
    exact absurd low (Nat.not_lt.mpr high)
  · rw [Option.some.injEq]
    constructor
    · rintro rfl
      exact ⟨rfl, Nat.not_lt.mp low⟩
    · exact fun both => both.1.symm

theorem compareCandidates_eq_ok {right : Nat} {candidates : List Nat}
    {state final : List RecordEdge × Nat}
    (ran : candidates.foldlM (compareCandidate records limits record right) state = .ok final) :
    final.1 = state.1 ++ candidates.filterMap (candidateEdge records limits record right) := by
  refine holds_of_foldlM (fun done (output : List RecordEdge × Nat) => output.1 = state.1 ++
    done.filterMap (candidateEdge records limits record right)) ran (append_nil _).symm ?_
  intro done left rest before next _ here round
  rw [compareCandidate, within, check_bind_eq_ok] at round
  have added : next.1 = before.1 ++ (candidateEdge records limits record right left).toList := by
    have body := round.2
    unfold candidateEdge
    cases atLeft : records[left]? with
    | none =>
      rw [atLeft] at body
      cases body
      exact (append_nil _).symm
    | some leftRecord =>
      rw [atLeft] at body
      dsimp only [Option.bind_some] at body ⊢
      split_ifs at body ⊢ with low
      · cases body
        exact (append_nil _).symm
      · cases body
        rfl
  rw [added, here, filterMap_append, append_assoc]
  congr 2

/-! ## The search -/

theorem nearStep_eq_ok {right : Nat} (atRight : records[right]? = some record)
    (ran : nearStep records limits (countSupport records limits) state (record, right) = .ok next) :
    next.postings = (anchorsAt records limits right).foldl (post right) state.postings ∧
      next.output = state.output ++ (candidatesOf state.postings (anchorsAt records limits right)
        ).filterMap (candidateEdge records limits record right) := by
  have anchors : anchorsAt records limits right = if isEligible limits record then
      selectedAnchors record (countSupport records limits) limits else [] := by
    rw [anchorsAt, atRight]
    rfl
  rw [anchors]
  unfold nearStep at ran
  dsimp only at ran
  by_cases eligible : isEligible limits record
  · rw [if_pos eligible]
    rw [eligible] at ran
    rcases bind_eq_ok.mp ran with ⟨compared, inner, rest⟩
    cases rest
    exact ⟨rfl, compareCandidates_eq_ok inner⟩
  · rw [if_neg eligible]
    rw [Bool.eq_false_of_not_eq_true eligible] at ran
    cases ran
    exact ⟨rfl, (append_nil _).symm⟩

/-- What the first records have led to. -/
structure Searched (records : List UniqueTextRecord) (limits : DuplicationIndexLimits) (count : Nat)
    (state : NearState) : Prop where
  posted : ∀ anchor index, index ∈ state.postings.members anchor ↔
    anchor ∈ anchorsAt records limits index ∧ index < count
  found : ∀ edge, edge ∈ state.output ↔ Reported records limits edge ∧ edge.right < count
  once : (state.output.map linkOf).Nodup

theorem Searched.step {count : Nat}
    (searched : Searched records limits count state) (atCount : records[count]? = some record)
    (ran : nearStep records limits (countSupport records limits) state (record, count) = .ok next) :
    Searched records limits (count + 1) next := by
  rcases nearStep_eq_ok atCount ran with ⟨postings, output⟩
  have added : ∀ edge, edge ∈ (candidatesOf state.postings (anchorsAt records limits count)).filterMap
      (candidateEdge records limits record count) ↔ Reported records limits edge ∧ edge.right = count := by
    intro edge
    rw [mem_filterMap]
    simp only [mem_candidatesOf, candidateEdge_eq_some, searched.posted]
    constructor
    · rintro ⟨left, ⟨anchor, ours, theirs, before⟩, leftRecord, atLeft, rfl, similar⟩
      exact ⟨⟨before, ⟨anchor, theirs, ours⟩, ⟨leftRecord, record, atLeft, atCount, rfl⟩, similar⟩, rfl⟩
    · rintro ⟨reported, rfl⟩
      rcases reported.anchored with ⟨anchor, theirs, ours⟩
      rcases reported.near with ⟨leftRecord, rightRecord, atLeft, atRight, value⟩
      cases atCount.symm.trans atRight
      refine ⟨edge.left, ⟨anchor, ours, theirs, reported.forward⟩, leftRecord, atLeft, ?_,
        reported.similar⟩
      rw [← value]
  constructor
  · intro anchor index
    rw [postings]
    unfold post
    rw [OrderedMap.mem_members_foldl_append, searched.posted, Nat.lt_succ_iff_lt_or_eq, and_or_left]
    refine or_congr_right (and_congr_left fun same => ?_)
    rw [same]
  · intro edge
    rw [output, mem_append, searched.found, added, Nat.lt_succ_iff_lt_or_eq, and_or_left]
  · rw [output, map_append, nodup_append']
    refine ⟨searched.once, ?_, ?_⟩
    · rw [map_filterMap]
      refine (nodup_candidatesOf _ _).filterMap ?_
      intro first second link inFirst inSecond
      rcases Option.map_eq_some_iff.mp inFirst with ⟨firstEdge, fromFirst, rfl⟩
      rcases Option.map_eq_some_iff.mp inSecond with ⟨secondEdge, fromSecond, same⟩
      rcases candidateEdge_eq_some.mp fromFirst with ⟨_, _, rfl, _⟩
      rcases candidateEdge_eq_some.mp fromSecond with ⟨_, _, rfl, _⟩
      exact (congrArg Prod.fst same).symm
    · intro link old new
      rcases mem_map.mp old with ⟨oldEdge, inOld, rfl⟩
      rcases mem_map.mp new with ⟨newEdge, inNew, same⟩
      have before := ((searched.found oldEdge).mp inOld).2
      have here := ((added newEdge).mp inNew).2
      have rights : newEdge.right = oldEdge.right := congrArg Prod.snd same
      exact absurd (here.symm.trans rights) (Nat.ne_of_gt before)

/-- The edges are those that are reported, each once. -/
theorem nearEdges_eq_ok {edges : List RecordEdge} {comparisons : Nat}
    (ran : nearEdges records limits = .ok (edges, comparisons)) :
    (∀ edge, edge ∈ edges ↔ Reported records limits edge) ∧ (edges.map linkOf).Nodup := by
  rw [nearEdges, bind_eq_ok] at ran
  rcases ran with ⟨state, loop, rest⟩
  cases rest
  have searched : Searched records limits records.zipIdx.length state := by
    refine holds_of_foldlM (fun done state => Searched records limits done.length state) loop ?_ ?_
    · refine ⟨?_, ?_, nodup_nil⟩
      · exact fun anchor index => iff_of_false (not_mem_nil) fun both => Nat.not_lt_zero _ both.2
      · exact fun edge => iff_of_false (not_mem_nil) fun both => Nat.not_lt_zero _ both.2
    · intro done entry rest before next split here round
      have atDone : records.zipIdx[done.length]? = some entry := by
        rw [split, getElem?_append_right (Nat.le_refl _), Nat.sub_self]
        rfl
      rw [getElem?_zipIdx, Option.map_eq_some_iff] at atDone
      rcases atDone with ⟨record, atIndex, rfl⟩
      rw [length_append, length_singleton]
      rw [Nat.zero_add] at round
      exact here.step atIndex round
  rw [length_zipIdx] at searched
  refine ⟨fun edge => (searched.found edge).trans ?_, searched.once⟩
  refine and_iff_left_of_imp fun reported => ?_
  rcases reported.near with ⟨_, _, _, atRight, _⟩
  exact (List.getElem?_eq_some_iff.mp atRight).1

/-! ## Similarity -/

/-- The shingles in common are at least the least share of the shingles of both. -/
def SimilarEnough (limits : DuplicationIndexLimits) (left right : Finset Text) : Prop :=
  limits.minimumSimilarityBasisPoints * (left ∪ right).card ≤ (left ∩ right).card * 10000

theorem jaccard_eq (distinctLeft : left.Nodup) (distinctRight : right.Nodup) :
    (jaccard left right).intersection = (left.toFinset ∩ right.toFinset).card ∧
      (jaccard left right).union = (left.toFinset ∪ right.toFinset).card := by
  have shared : left.countP (· ∈ right) = (left.toFinset ∩ right.toFinset).card := by
    have same : left.toFinset ∩ right.toFinset = (left.filter (· ∈ right)).toFinset := by
      ext shingle
      simp
    rw [same, toFinset_card_of_nodup (distinctLeft.filter _), countP_eq_length_filter]
  refine ⟨shared, ?_⟩
  rw [Finset.card_union, toFinset_card_of_nodup distinctLeft,
    toFinset_card_of_nodup distinctRight, ← shared]
  rfl

theorem card_union_pos {left : List Text} (right : List Text) (some : left ≠ []) :
    0 < (left.toFinset ∪ right.toFinset).card := by
  rcases exists_mem_of_ne_nil _ some with ⟨shingle, member⟩
  exact Finset.card_pos.mpr ⟨shingle, Finset.mem_union_left _ (mem_toFinset.mpr member)⟩

theorem similarityBasisPoints_eq (distinctLeft : left.Nodup)
    (distinctRight : right.Nodup) (some : left ≠ []) : (jaccard left right).similarityBasisPoints =
      (jaccard left right).intersection * 10000 / (jaccard left right).union := by
  have united := (jaccard_eq distinctLeft distinctRight).2
  have positive : 0 < (jaccard left right).union := united ▸ card_union_pos right some
  exact if_neg (Nat.ne_of_gt positive)

theorem similar_iff (distinctLeft : left.Nodup) (distinctRight : right.Nodup) (some : left ≠ []) :
    limits.minimumSimilarityBasisPoints ≤ (jaccard left right).similarityBasisPoints ↔
      SimilarEnough limits left.toFinset right.toFinset := by
  rcases jaccard_eq distinctLeft distinctRight with ⟨shared, united⟩
  rw [similarityBasisPoints_eq distinctLeft distinctRight some, shared, united,
    Nat.le_div_iff_mul_le (card_union_pos right some)]
  rfl

/-- Fewer shingles of a text are left out than there is room for. -/
theorem card_lt_of_similar {left right : Finset Text} {room : Nat}
    (similar : SimilarEnough limits left right)
    (enough : left.card - (limits.minimumSimilarityBasisPoints * left.card) ⌈/⌉ 10000 + 1 ≤ room) :
    left.card < (left ∩ right).card + room := by
  have whole : limits.minimumSimilarityBasisPoints * left.card ≤ (left ∩ right).card * 10000 :=
    (Nat.mul_le_mul_left _ (Finset.card_le_card Finset.subset_union_left)).trans similar
  have least : (limits.minimumSimilarityBasisPoints * left.card) ⌈/⌉ 10000 ≤ (left ∩ right).card := by
    rw [ceilDiv_le_iff_le_mul (by decide), Nat.mul_comm 10000]
    exact whole
  omega

theorem SimilarEnough.symm {left right : Finset Text} (similar : SimilarEnough limits left right) :
    SimilarEnough limits right left := by
  unfold SimilarEnough at similar ⊢
  rwa [Finset.union_comm, Finset.inter_comm]

/-! ## Completeness -/

theorem two_le_countP {α : Type} {list : List α} {holds : α → Bool} {i j : Nat} {a b : α}
    (atFirst : list[i]? = some a) (atSecond : list[j]? = some b) (before : i < j)
    (first : holds a = true) (second : holds b = true) : 2 ≤ list.countP holds := by
  have inFront : a ∈ list.take j :=
    mem_of_getElem? ((getElem?_take_of_lt before).trans atFirst)
  have inBack : b ∈ list.drop j := by
    apply mem_of_getElem? (i := 0)
    rw [getElem?_drop]
    exact atSecond
  rw [← take_append_drop j list, countP_append]
  exact Nat.add_le_add (countP_pos_iff.mpr ⟨a, inFront, first⟩)
    (countP_pos_iff.mpr ⟨b, inBack, second⟩)

/-- No shingle that several eligible records have is in too many of them to be an anchor. -/
def PostingsFit (records : List UniqueTextRecord) (limits : DuplicationIndexLimits) : Prop :=
  ∀ shingle, 2 ≤ records.countP (supports limits shingle) →
    records.countP (supports limits shingle) ≤ limits.maximumPostingLength

/-- There is room for as many anchors of each eligible record as a similar one may lack, and one. -/
def AnchorsFit (limits : DuplicationIndexLimits) (shingles : Finset Text) : Prop :=
  shingles.card - (limits.minimumSimilarityBasisPoints * shingles.card) ⌈/⌉ 10000 + 1 ≤
    limits.maximumAnchorsPerEntry

theorem reported_of_similar {left right : Nat} {a b : UniqueTextRecord}
    (distinct : ∀ record ∈ records, record.shingles.Nodup) (postingsFit : PostingsFit records limits)
    (positive : 0 < limits.minimumSimilarityBasisPoints) (before : left < right)
    (atLeft : records[left]? = some a) (atRight : records[right]? = some b)
    (eligibleLeft : isEligible limits a = true) (eligibleRight : isEligible limits b = true)
    (nonempty : a.shingles ≠ []) (roomLeft : AnchorsFit limits a.shingles.toFinset)
    (roomRight : AnchorsFit limits b.shingles.toFinset)
    (similar : SimilarEnough limits a.shingles.toFinset b.shingles.toFinset) :
    Reported records limits ⟨left, right, nearEdge a b⟩ := by
  have distinctLeft := distinct a (mem_of_getElem? atLeft)
  have distinctRight := distinct b (mem_of_getElem? atRight)
  refine ⟨before, ?_, ⟨a, b, atLeft, atRight, rfl⟩, (similar_iff distinctLeft distinctRight nonempty).mpr similar⟩
  have some : 0 < (a.shingles.toFinset ∩ b.shingles.toFinset).card := by
    have united := card_union_pos b.shingles nonempty
    exact Nat.pos_of_mul_pos_right ((Nat.mul_pos positive united).trans_le similar)
  have enoughLeft := card_lt_of_similar similar roomLeft
  have enoughRight := card_lt_of_similar similar.symm roomRight
  rw [Finset.inter_comm] at enoughRight
  rw [toFinset_card_of_nodup distinctLeft] at enoughLeft
  rw [toFinset_card_of_nodup distinctRight] at enoughRight
  have kept : ∀ shingle ∈ a.shingles, shingle ∈ b.shingles →
      decide (2 ≤ supportOf (countSupport records limits) shingle ∧
        supportOf (countSupport records limits) shingle ≤ limits.maximumPostingLength) = true := by
    intro shingle inLeft inRight
    have supportLeft : supports limits shingle a = true := by
      rw [supports, eligibleLeft, decide_eq_true inLeft]
      rfl
    have supportRight : supports limits shingle b = true := by
      rw [supports, eligibleRight, decide_eq_true inRight]
      rfl
    have several := two_le_countP atLeft atRight before supportLeft supportRight
    rw [supportOf_countSupport distinct]
    exact decide_eq_true ⟨several, postingsFit shingle several⟩
  rcases PrefixFilter.exists_shared distinctLeft distinctRight
    (eq_of_compareSupport (countSupport records limits)) kept some enoughLeft enoughRight with
    ⟨anchor, inLeft, inRight⟩
  refine ⟨anchor, ?_, ?_⟩
  · rw [anchorsAt, atLeft, Option.map_some, Option.getD_some, if_pos eligibleLeft]
    exact inLeft
  · rw [anchorsAt, atRight, Option.map_some, Option.getD_some, if_pos eligibleRight]
    exact inRight

end AgentContextLint.DuplicationIndex
