import AgentContextLint.Evidence.NearEdges
import AgentContextLint.Lib.KeyedFold

/-!
# What near duplicates are reported

Each distinct text has one record, with its statements and the set of its shingles (`RecordsOf`). So
an edge between records joins two texts, and what is known of the edges that `nearEdges` finds is
known of the texts (`nearDuplicates_exact`).
-/

namespace AgentContextLint.DuplicationIndex

open Utf16 Metered Sorting KeyedFold List
open OrderedMap (group mem_keys_group members)

variable {entries : List DuplicationIndexEntry} {limits : DuplicationIndexLimits}
  {records : List UniqueTextRecord} {groups : List (Text × List DuplicationIndexEntry)}
  {functions : TextFunctions} {total : Nat} {text : Text}

/-! ## Texts -/

def shinglesOf (text : Text) : Finset Text :=
  (triples ([0x02] :: symbolsOf text ++ [[0x03]])).toFinset

/-- The distinct texts that are compared. -/
def eligibleTexts (entries : List DuplicationIndexEntry) (limits : DuplicationIndexLimits) :
    Finset Text :=
  (entries.map (·.normalizedText)).toFinset.filter fun text =>
    limits.minimumNearDuplicateCodePoints ≤ (symbolsOf text).length

def textsWith (entries : List DuplicationIndexEntry) (limits : DuplicationIndexLimits)
    (shingle : Text) : Finset Text :=
  (eligibleTexts entries limits).filter fun text => shingle ∈ shinglesOf text

def textOf (entries : List DuplicationIndexEntry) (statementId : Text) : Option Text :=
  (at? (·.statementId) statementId entries).map (·.normalizedText)

/-- An edge is between statements with two texts, in either direction. -/
def Joins (entries : List DuplicationIndexEntry) (first second : Text)
    (edge : NearDuplicationEdge) : Prop :=
  (textOf entries edge.leftStatementId = some first ∧
    textOf entries edge.rightStatementId = some second) ∨
  (textOf entries edge.leftStatementId = some second ∧
    textOf entries edge.rightStatementId = some first)

instance (first second : Text) : DecidablePred (Joins entries first second) :=
  fun _ => inferInstanceAs (Decidable (_ ∨ _))

/-- An edge joins two distinct texts that are similar enough, and counts their shingles. -/
def Sound (entries : List DuplicationIndexEntry) (limits : DuplicationIndexLimits)
    (edge : NearDuplicationEdge) : Prop :=
  ∃ first ∈ eligibleTexts entries limits, ∃ second ∈ eligibleTexts entries limits,
    first ≠ second ∧ Joins entries first second edge ∧
    edge.intersectionShingles = (shinglesOf first ∩ shinglesOf second).card ∧
    edge.unionShingles = (shinglesOf first ∪ shinglesOf second).card ∧
    edge.similarityBasisPoints = edge.intersectionShingles * 10000 / edge.unionShingles ∧
    SimilarEnough limits (shinglesOf first) (shinglesOf second)

/-- No shingle of several texts is in too many of them. -/
def SharedShinglesFit (entries : List DuplicationIndexEntry) (limits : DuplicationIndexLimits) :
    Prop :=
  ∀ shingle, 2 ≤ (textsWith entries limits shingle).card →
    (textsWith entries limits shingle).card ≤ limits.maximumPostingLength

theorem nonempty_shinglesOf (some : symbolsOf text ≠ []) : (shinglesOf text).Nonempty := by
  cases symbols : symbolsOf text with
  | nil => exact absurd symbols some
  | cons symbol rest =>
    have three : ∃ triple, triple ∈ triples ([0x02] :: symbol :: rest ++ [[0x03]]) := by
      cases rest with
      | nil => exact ⟨_, mem_cons_self⟩
      | cons next rest => exact ⟨_, mem_cons_self⟩
    rcases three with ⟨triple, member⟩
    refine ⟨triple, mem_toFinset.mpr ?_⟩
    rwa [symbols]

/-! ## Accepted entries -/

theorem validateLimit_eq_ok {value : Int} {name : DuplicationIndexLimitName} {limit : Nat}
    (valid : validateLimit value name = .ok limit) : 0 < limit := by
  rw [validateLimit, check_bind_eq_ok, refuseIf_eq_ok] at valid
  rcases valid with ⟨inside, made⟩
  cases made
  omega

variable {options : DuplicationIndexOptions}

theorem validateOptions_eq_ok (valid : validateOptions options = .ok limits) :
    0 < limits.minimumNearDuplicateCodePoints ∧ 0 < limits.minimumSimilarityBasisPoints := by
  simp only [validateOptions, bind_eq_ok] at valid
  rcases valid with ⟨_, _, _, _, _, _, _, _, _, _, _, _, _, _, _, _, _, _, _, _, codePoints,
    readCodePoints, basisPoints, readBasisPoints, made⟩
  cases made
  exact ⟨validateLimit_eq_ok readCodePoints, validateLimit_eq_ok readBasisPoints⟩

theorem validateEntry_eq_ok {state next : Text × Nat}
    {entry : DuplicationIndexEntry × Nat} (valid : validateEntry functions limits state entry = .ok next) :
    compareUnits state.1 entry.1.statementId = .lt ∧ next.1 = entry.1.statementId := by
  unfold validateEntry requireInput at valid
  simp only [check_bind_eq_ok, refuseIf_eq_ok, not_not] at valid
  rcases valid with ⟨_, later, _, _, _, _, _, made⟩
  cases made
  exact ⟨later, rfl⟩

/-- The identifiers of the statements are distinct. -/
theorem nodup_statementIds (valid : validateEntries functions entries limits = .ok total) :
    (entries.map (·.statementId)).Nodup := by
  rw [validateEntries, check_bind_eq_ok, bind_eq_ok] at valid
  rcases valid with ⟨_, state, loop, _⟩
  have increasing := holds_of_foldlM (fun done (state : Text × Nat) =>
    (∀ id ∈ done.map (·.1.statementId), id = state.1 ∨ compareUnits id state.1 = .lt) ∧
      (done.map (·.1.statementId)).Nodup) loop ⟨fun _ none => (not_mem_nil none).elim, nodup_nil⟩ <| by
    intro done entry rest before next _ here round
    rcases validateEntry_eq_ok round with ⟨later, current⟩
    rcases here with ⟨below, distinct⟩
    have less : ∀ id ∈ done.map (·.1.statementId), compareUnits id entry.1.statementId = .lt := by
      intro id member
      rcases below id member with rfl | earlier
      · exact later
      · exact Std.TransCmp.lt_trans earlier later
    rw [map_append, current]
    refine ⟨fun id member => ?_, ?_⟩
    · rcases mem_append.mp member with old | new
      · exact Or.inr (less id old)
      · exact Or.inl (mem_singleton.mp new)
    · refine nodup_append_comm.mpr (nodup_cons.mpr ⟨fun member => ?_, distinct⟩)
      have itself := less _ member
      rw [compareUnits_eq_iff.mpr rfl] at itself
      cases itself
  have ids := increasing.2
  rwa [← Function.comp_def (fun entry : DuplicationIndexEntry => entry.statementId) Prod.fst,
    ← map_map, zipIdx_map_fst] at ids

/-! ## Records -/

/-- There is one record for each distinct text. -/
structure RecordsOf (entries : List DuplicationIndexEntry) (records : List UniqueTextRecord) :
    Prop where
  distinct : (records.map (·.normalizedText)).Nodup
  texts : ∀ text, text ∈ records.map (·.normalizedText) ↔ text ∈ entries.map (·.normalizedText)
  members : ∀ record ∈ records, record.members ≠ [] ∧ ∀ entry ∈ record.members,
    entry ∈ entries ∧ entry.normalizedText = record.normalizedText
  listed : ∀ record ∈ records, record.shingles.Nodup
  shingles : ∀ record ∈ records, record.shingles.toFinset = shinglesOf record.normalizedText

theorem createShingles_eq_ok {shingles : List Text}
    (created : createShingles text limits = .ok shingles) :
    shingles.Nodup ∧ shingles.toFinset = shinglesOf text := by
  rw [createShingles, check_bind_eq_ok] at created
  rcases created with ⟨_, made⟩
  cases made
  refine ⟨(nodup_sortBy _).mpr (nodup_eraseDups _), ?_⟩
  ext shingle
  rw [mem_toFinset, mem_sortBy, mem_eraseDups, shinglesOf, mem_toFinset]

/-- The groups that lead to records. -/
def sortedGroups (entries : List DuplicationIndexEntry) :
    List (Text × List DuplicationIndexEntry) :=
  sortBy (comparingWith compareUnits (·.1)) (group (·.normalizedText) entries).entries

theorem mem_sortedGroups {group : Text × List DuplicationIndexEntry}
    (member : group ∈ sortedGroups entries) :
    group.2 = entries.filter (fun entry => entry.normalizedText = group.1) ∧ group.2 ≠ [] := by
  have inside := (mem_sortBy _).mp member
  have found := OrderedMap.get?_eq_some.mpr inside
  have filtered := OrderedMap.members_group (·.normalizedText) entries group.1
  rw [members, found, Option.getD_some] at filtered
  refine ⟨filtered, ?_⟩
  rcases (mem_keys_group _).mp (mem_map_of_mem inside) with ⟨entry, inEntries, same⟩
  rw [filtered]
  exact ne_nil_of_mem (mem_filter.mpr ⟨inEntries, decide_eq_true same⟩)

/-- A record is that of a group. -/
structure RecordOf (group : Text × List DuplicationIndexEntry) (record : UniqueTextRecord) :
    Prop where
  text : record.normalizedText = group.1
  members : record.members.Perm group.2
  listed : record.shingles.Nodup
  shingles : record.shingles.toFinset = shinglesOf group.1

theorem buildUniqueRecords_eq_ok (built : buildUniqueRecords entries limits = .ok (records, total)) :
    Forall₂ RecordOf (sortedGroups entries) records := by
  refine holds_of_foldlM (fun done (state : List UniqueTextRecord × Nat) =>
    Forall₂ RecordOf done state.1) built .nil ?_
  intro done group rest before next _ here round
  rw [buildRecord, bind_eq_ok] at round
  rcases round with ⟨shingles, created, others⟩
  rw [check_bind_eq_ok] at others
  rcases others with ⟨_, made⟩
  cases made
  rcases createShingles_eq_ok created with ⟨listed, same⟩
  exact rel_append here (.cons ⟨rfl, sortBy_perm _ _, listed, same⟩ .nil)

theorem texts_of_groups (made : Forall₂ RecordOf groups records) :
    records.map (·.normalizedText) = groups.map (·.1) := by
  induction made with
  | nil => rfl
  | cons head _ ih => rw [map_cons, map_cons, head.text, ih]

theorem exists_group (made : Forall₂ RecordOf groups records) :
    ∀ record ∈ records, ∃ group ∈ groups, RecordOf group record := by
  induction made with
  | nil => exact fun record member => (not_mem_nil member).elim
  | @cons group head _ _ first _ ih =>
    intro record member
    rcases mem_cons.mp member with rfl | later
    · exact ⟨group, mem_cons_self, first⟩
    · rcases ih record later with ⟨other, inRest, same⟩
      exact ⟨other, mem_cons_of_mem _ inRest, same⟩

theorem recordsOf (built : buildUniqueRecords entries limits = .ok (records, total)) :
    RecordsOf entries records := by
  have made := buildUniqueRecords_eq_ok built
  have texts := texts_of_groups made
  have keys : ((sortedGroups entries).map (·.1)).Perm (group (·.normalizedText) entries).keys :=
    (sortBy_perm _ _).map _
  constructor
  · rw [texts, keys.nodup_iff]
    exact (group (·.normalizedText) entries).nodup
  · intro text
    rw [texts, keys.mem_iff, mem_keys_group, mem_map]
  · intro record member
    rcases exists_group made record member with ⟨group, inGroups, ofGroup⟩
    rcases mem_sortedGroups inGroups with ⟨filtered, nonempty⟩
    refine ⟨fun none => nonempty ?_, fun entry inMembers => ?_⟩
    · exact (Perm.nil_eq (none ▸ ofGroup.members)).symm
    · have inGroup := ofGroup.members.mem_iff.mp inMembers
      rw [filtered] at inGroup
      rcases mem_filter.mp inGroup with ⟨inEntries, same⟩
      exact ⟨inEntries, (of_decide_eq_true same).trans ofGroup.text.symm⟩
  · intro record member
    rcases exists_group made record member with ⟨group, _, ofGroup⟩
    exact ofGroup.listed
  · intro record member
    rcases exists_group made record member with ⟨group, _, ofGroup⟩
    rw [ofGroup.shingles, ofGroup.text]

section

variable (ofEntries : RecordsOf entries records)

include ofEntries

theorem RecordsOf.textOf_primary
    (ids : (entries.map (·.statementId)).Nodup) {record : UniqueTextRecord} (member : record ∈ records) :
    textOf entries (primaryStatementId record) = some record.normalizedText := by
  rcases ofEntries.members record member with ⟨nonempty, facts⟩
  cases members : record.members with
  | nil => exact absurd members nonempty
  | cons first rest =>
    have inMembers : first ∈ record.members := by
      rw [members]
      exact mem_cons_self
    rcases facts first inMembers with ⟨inEntries, same⟩
    have primary : primaryStatementId record = first.statementId := by
      rw [primaryStatementId, members]
      rfl
    rw [textOf, primary, (at?_eq_some ids).mpr ⟨inEntries, rfl⟩, Option.map_some, same]

theorem RecordsOf.mem_eligibleTexts : text ∈ eligibleTexts entries limits ↔
      ∃ record ∈ records, record.normalizedText = text ∧ isEligible limits record = true := by
  rw [eligibleTexts, Finset.mem_filter, mem_toFinset, ← ofEntries.texts, mem_map]
  constructor
  · rintro ⟨⟨record, member, rfl⟩, enough⟩
    exact ⟨record, member, rfl, decide_eq_true enough⟩
  · rintro ⟨record, member, rfl, eligible⟩
    exact ⟨⟨record, member, rfl⟩, of_decide_eq_true eligible⟩

/-- The support of a shingle is the number of the texts with it. -/
theorem RecordsOf.card_textsWith (shingle : Text) :
    (textsWith entries limits shingle).card = records.countP (supports limits shingle) := by
  have texts : textsWith entries limits shingle =
      ((records.filter (supports limits shingle)).map (·.normalizedText)).toFinset := by
    ext text
    rw [textsWith, Finset.mem_filter, ofEntries.mem_eligibleTexts, mem_toFinset, mem_map]
    constructor
    · rintro ⟨⟨record, member, rfl, eligible⟩, inside⟩
      rw [← ofEntries.shingles record member, mem_toFinset] at inside
      refine ⟨record, mem_filter.mpr ⟨member, ?_⟩, rfl⟩
      rw [supports, eligible, decide_eq_true inside]
      rfl
    · rintro ⟨record, inFilter, rfl⟩
      rcases mem_filter.mp inFilter with ⟨member, supported⟩
      rcases (Bool.and_eq_true _ _).mp supported with ⟨eligible, inside⟩
      refine ⟨⟨record, member, rfl, eligible⟩, ?_⟩
      rw [← ofEntries.shingles record member, mem_toFinset]
      exact of_decide_eq_true inside
  rw [texts, toFinset_card_of_nodup, length_map, countP_eq_length_filter]
  exact ofEntries.distinct.sublist (filter_sublist.map _)

end

/-! ## Edges -/

/-- What the search relies on. -/
structure Prepared (entries : List DuplicationIndexEntry) (limits : DuplicationIndexLimits)
    (records : List UniqueTextRecord) (edges : List RecordEdge) : Prop where
  codePoints : 0 < limits.minimumNearDuplicateCodePoints
  basisPoints : 0 < limits.minimumSimilarityBasisPoints
  ids : (entries.map (·.statementId)).Nodup
  ofEntries : RecordsOf entries records
  reported : ∀ edge, edge ∈ edges ↔ Reported records limits edge
  once : (edges.map linkOf).Nodup

variable {edges : List RecordEdge} {first second : UniqueTextRecord}
  {i j : Nat} {edge : RecordEdge} {record : UniqueTextRecord}

theorem eligible_of_anchor {index : Nat} {anchor : Text} (atIndex : records[index]? = some record)
    (member : anchor ∈ anchorsAt records limits index) : isEligible limits record = true := by
  rw [anchorsAt, atIndex, Option.map_some, Option.getD_some] at member
  split_ifs at member with eligible
  · exact eligible
  · cases member

theorem Prepared.nonempty (prepared : Prepared entries limits records edges) (member : record ∈ records) (eligible : isEligible limits record = true) :
    record.shingles ≠ [] := by
  have long : limits.minimumNearDuplicateCodePoints ≤ (symbolsOf record.normalizedText).length :=
    of_decide_eq_true eligible
  have some : symbolsOf record.normalizedText ≠ [] :=
    ne_nil_of_length_pos (prepared.codePoints.trans_le long)
  have nonempty := nonempty_shinglesOf some
  rw [← prepared.ofEntries.shingles record member] at nonempty
  intro none
  rw [none] at nonempty
  exact Finset.not_nonempty_empty nonempty

theorem RecordsOf.index_of_text (ofEntries : RecordsOf entries records) (atFirst : records[i]? = some first)
    (atSecond : records[j]? = some second) (same : first.normalizedText = second.normalizedText) :
    i = j := by
  have inside : i < (records.map (·.normalizedText)).length := by
    rw [length_map]
    exact (List.getElem?_eq_some_iff.mp atFirst).1
  apply (getElem?_inj inside ofEntries.distinct).mp
  rw [getElem?_map, getElem?_map, atFirst, atSecond]
  exact congrArg some same

section

variable (prepared : Prepared entries limits records edges)

include prepared

theorem Prepared.sound (member : edge ∈ edges) : Sound entries limits edge.value := by
  have reported := (prepared.reported edge).mp member
  rcases reported.near with ⟨first, second, atLeft, atRight, value⟩
  rcases reported.anchored with ⟨anchor, anchorLeft, anchorRight⟩
  have inFirst := mem_of_getElem? atLeft
  have inSecond := mem_of_getElem? atRight
  have eligibleFirst := eligible_of_anchor atLeft anchorLeft
  have eligibleSecond := eligible_of_anchor atRight anchorRight
  have nonempty := prepared.nonempty inFirst eligibleFirst
  have listedFirst := prepared.ofEntries.listed first inFirst
  have listedSecond := prepared.ofEntries.listed second inSecond
  have apart : first.normalizedText ≠ second.normalizedText := fun same =>
    Nat.ne_of_lt reported.forward (prepared.ofEntries.index_of_text atLeft atRight same)
  have similar := reported.similar
  rw [value] at similar ⊢
  have enough := (similar_iff listedFirst listedSecond nonempty).mp similar
  rcases jaccard_eq listedFirst listedSecond with ⟨shared, united⟩
  rw [prepared.ofEntries.shingles first inFirst, prepared.ofEntries.shingles second inSecond] at shared united enough
  refine ⟨first.normalizedText, prepared.ofEntries.mem_eligibleTexts.mpr ⟨first, inFirst, rfl, eligibleFirst⟩,
    second.normalizedText, prepared.ofEntries.mem_eligibleTexts.mpr ⟨second, inSecond, rfl, eligibleSecond⟩,
    apart, Or.inl ⟨?_, ?_⟩, shared, united, ?_, enough⟩
  · exact prepared.ofEntries.textOf_primary prepared.ids inFirst
  · exact prepared.ofEntries.textOf_primary prepared.ids inSecond
  · exact similarityBasisPoints_eq listedFirst listedSecond nonempty

/-- An edge joins two texts exactly if it lies between their records. -/
theorem Prepared.joins_iff (atFirst : records[i]? = some first)
    (atSecond : records[j]? = some second) (before : i < j) (member : edge ∈ edges) :
    Joins entries first.normalizedText second.normalizedText edge.value ↔ linkOf edge = (i, j) := by
  have reported := (prepared.reported edge).mp member
  rcases reported.near with ⟨left, right, atLeft, atRight, value⟩
  have leftText := prepared.ofEntries.textOf_primary prepared.ids (mem_of_getElem? atLeft)
  have rightText := prepared.ofEntries.textOf_primary prepared.ids (mem_of_getElem? atRight)
  have leftIs : ∀ {k : Nat} {record : UniqueTextRecord}, records[k]? = some record →
      (textOf entries edge.value.leftStatementId = some record.normalizedText ↔ edge.left = k) := by
    intro k record atIndex
    rw [value]
    constructor
    · intro same
      exact prepared.ofEntries.index_of_text atLeft atIndex (Option.some.inj (leftText.symm.trans same))
    · rintro rfl
      cases atLeft.symm.trans atIndex
      exact leftText
  have rightIs : ∀ {k : Nat} {record : UniqueTextRecord}, records[k]? = some record →
      (textOf entries edge.value.rightStatementId = some record.normalizedText ↔ edge.right = k) := by
    intro k record atIndex
    rw [value]
    constructor
    · intro same
      exact prepared.ofEntries.index_of_text atRight atIndex (Option.some.inj (rightText.symm.trans same))
    · rintro rfl
      cases atRight.symm.trans atIndex
      exact rightText
  rw [Joins, leftIs atFirst, rightIs atSecond, leftIs atSecond, rightIs atFirst, linkOf, Prod.mk.injEq]
  refine or_iff_left fun back => ?_
  rcases back with ⟨rfl, rfl⟩
  exact Nat.lt_asymm before reported.forward

theorem Prepared.countP_joins (sharedFit : SharedShinglesFit entries limits)
    (anchorsFit : ∀ text ∈ eligibleTexts entries limits, AnchorsFit limits (shinglesOf text)) (atFirst : records[i]? = some first)
    (atSecond : records[j]? = some second) (before : i < j)
    (eligibleFirst : isEligible limits first = true) (eligibleSecond : isEligible limits second = true)
    (similar : SimilarEnough limits (shinglesOf first.normalizedText) (shinglesOf second.normalizedText)) :
    (edges.map (·.value)).countP (Joins entries first.normalizedText second.normalizedText ·) = 1 := by
  have inFirst := mem_of_getElem? atFirst
  have inSecond := mem_of_getElem? atSecond
  have roomFirst := anchorsFit _ (prepared.ofEntries.mem_eligibleTexts.mpr ⟨first, inFirst, rfl, eligibleFirst⟩)
  have roomSecond := anchorsFit _
    (prepared.ofEntries.mem_eligibleTexts.mpr ⟨second, inSecond, rfl, eligibleSecond⟩)
  rw [← prepared.ofEntries.shingles first inFirst] at similar roomFirst
  rw [← prepared.ofEntries.shingles second inSecond] at similar roomSecond
  have postingsFit : PostingsFit records limits := by
    intro shingle
    rw [← prepared.ofEntries.card_textsWith shingle]
    exact sharedFit shingle
  have reported := reported_of_similar prepared.ofEntries.listed postingsFit prepared.basisPoints before
    atFirst atSecond eligibleFirst eligibleSecond (prepared.nonempty inFirst eligibleFirst) roomFirst
    roomSecond similar
  have member : (i, j) ∈ edges.map linkOf :=
    mem_map_of_mem (f := linkOf) ((prepared.reported _).mpr reported)
  rw [countP_map, ← count_eq_one_of_mem prepared.once member, count, countP_map]
  refine countP_congr fun edge inEdges => ?_
  rw [Function.comp_apply, Function.comp_apply, decide_eq_true_iff, beq_iff_eq]
  exact prepared.joins_iff atFirst atSecond before inEdges

end

theorem joins_swap (first second : Text) (edge : NearDuplicationEdge) :
    Joins entries first second edge ↔ Joins entries second first edge := or_comm

theorem Prepared.complete (prepared : Prepared entries limits records edges)
    (sharedFit : SharedShinglesFit entries limits)
    (anchorsFit : ∀ text ∈ eligibleTexts entries limits, AnchorsFit limits (shinglesOf text))
    {first second : Text} (inFirst : first ∈ eligibleTexts entries limits)
    (inSecond : second ∈ eligibleTexts entries limits) (apart : first ≠ second)
    (similar : SimilarEnough limits (shinglesOf first) (shinglesOf second)) :
    (edges.map (·.value)).countP (Joins entries first second ·) = 1 := by
  rcases prepared.ofEntries.mem_eligibleTexts.mp inFirst with ⟨a, memberA, rfl, eligibleA⟩
  rcases prepared.ofEntries.mem_eligibleTexts.mp inSecond with ⟨b, memberB, rfl, eligibleB⟩
  rcases getElem?_of_mem memberA with ⟨i, atA⟩
  rcases getElem?_of_mem memberB with ⟨j, atB⟩
  rcases Nat.lt_trichotomy i j with before | same | behind
  · exact prepared.countP_joins sharedFit anchorsFit atA atB before eligibleA eligibleB similar
  · rw [same, atB] at atA
    cases atA
    exact absurd rfl apart
  · simp only [joins_swap a.normalizedText]
    exact prepared.countP_joins sharedFit anchorsFit atB atA behind eligibleB eligibleA similar.symm

/-! ## The index -/

/-- A result has the edges between the records in its clusters. -/
theorem buildDuplicationIndex_eq_ok {functions : TextFunctions} {rounds : Nat}
    {result : DuplicationIndexResult}
    (built : buildDuplicationIndex functions rounds entries options = some (.ok result))
    (enough : entries.length ≤ rounds) : ∃ records edges,
      Prepared entries result.limits records edges ∧
        (result.nearClusters.flatMap (·.edges)).Perm (edges.map (·.value)) := by
  unfold buildDuplicationIndex at built
  dsimp only at built
  split at built
  · cases built
  · rename_i prepared
    rcases bind_eq_ok.mp prepared with ⟨_, valid, rest⟩
    rcases bind_eq_ok.mp rest with ⟨_, accepted, rest⟩
    rcases bind_eq_ok.mp rest with ⟨⟨records, _⟩, grouped, rest⟩
    rcases bind_eq_ok.mp rest with ⟨_, _, rest⟩
    rcases bind_eq_ok.mp rest with ⟨⟨edges, _⟩, searched, rest⟩
    cases rest
    rcases Option.bind_eq_some_iff.mp built with ⟨outcome, clustered, built⟩
    cases outcome with
    | error error => cases built
    | ok clusters =>
      cases built
      rcases validateOptions_eq_ok valid with ⟨codePoints, basisPoints⟩
      have ofEntries := recordsOf grouped
      rcases nearEdges_eq_ok searched with ⟨reported, once⟩
      refine ⟨records, edges,
        ⟨codePoints, basisPoints, nodup_statementIds accepted, ofEntries, reported, once⟩, ?_⟩
      have inside : Inside records.length edges :=
        inside_of_near fun edge member => ((reported edge).mp member).near
      have few : records.length ≤ entries.length := by
        have subset : records.map (·.normalizedText) ⊆ entries.map (·.normalizedText) :=
          fun text => (ofEntries.texts text).mp
        have shorter := (ofEntries.distinct.subperm subset).length_le
        rwa [length_map, length_map] at shorter
      rcases nearClusters_eq inside (few.trans enough) with ⟨sets, components, ran⟩
      rw [ran] at clustered
      have done := Option.some.inj clustered
      unfold clustersAt at done
      split_ifs at done
      cases done
      refine (Perm.flatMap_right _ (sortBy_perm _ _)).trans ?_
      exact edges_clusters components.sorted

/-- Every edge that is reported is between two distinct similar texts; and where there is room for the
anchors and the postings, so is every pair of similar texts, once. -/
theorem nearDuplicates_exact {functions : TextFunctions} {rounds : Nat}
    {options : DuplicationIndexOptions} {result : DuplicationIndexResult}
    (built : buildDuplicationIndex functions rounds entries options = some (.ok result))
    (enough : entries.length ≤ rounds) :
    (∀ edge ∈ result.nearClusters.flatMap (·.edges), Sound entries result.limits edge) ∧
    (SharedShinglesFit entries result.limits →
      (∀ text ∈ eligibleTexts entries result.limits, AnchorsFit result.limits (shinglesOf text)) →
      ∀ first ∈ eligibleTexts entries result.limits, ∀ second ∈ eligibleTexts entries result.limits,
        first ≠ second → SimilarEnough result.limits (shinglesOf first) (shinglesOf second) →
          (result.nearClusters.flatMap (·.edges)).countP (Joins entries first second ·) = 1) := by
  rcases buildDuplicationIndex_eq_ok built enough with ⟨records, edges, prepared, perm⟩
  constructor
  · intro value listed
    rcases mem_map.mp (perm.mem_iff.mp listed) with ⟨edge, member, rfl⟩
    exact prepared.sound member
  · intro sharedFit anchorsFit first inFirst second inSecond apart similar
    rw [perm.countP_eq]
    exact prepared.complete sharedFit anchorsFit inFirst inSecond apart similar

def plainTexts : TextFunctions := ⟨id, id⟩

def commitEntries : List DuplicationIndexEntry :=
  [firstStatement (js "a") (js "run all tests before commit"),
    firstStatement (js "b") (js "run all tests before commits")]

/-- Two texts that share 26 of 29 shingles are reported once. -/
theorem nearDuplicates_exact_commit : ∃ result,
    buildDuplicationIndex plainTexts 2 commitEntries (fun _ => none) = some (.ok result) ∧
      (result.nearClusters.flatMap (·.edges)).countP
        (Joins commitEntries (js "run all tests before commit") (js "run all tests before commits") ·) = 1 := by
  have ran : ((buildDuplicationIndex plainTexts 2 commitEntries fun _ => none).bind fun outcome =>
      outcome.toOption.map (·.limits)) = some defaultLimits := by decide +kernel
  rcases Option.bind_eq_some_iff.mp ran with ⟨outcome, built, rest⟩
  rcases Option.map_eq_some_iff.mp rest with ⟨result, found, limits⟩
  have built := built.trans (congrArg some (eq_ok_of_toOption found))
  have complete := (nearDuplicates_exact built (Nat.le_refl 2)).2
  rw [limits] at complete
  refine ⟨result, built, complete ?_ ?_ _ ?_ _ ?_ ?_ ?_⟩
  · intro shingle _
    have few : (eligibleTexts commitEntries defaultLimits).card ≤ 1024 := by decide +kernel
    exact (Finset.card_filter_le _ _).trans few
  · unfold AnchorsFit
    decide +kernel
  · decide +kernel
  · decide +kernel
  · decide +kernel
  · unfold SimilarEnough
    decide +kernel

end AgentContextLint.DuplicationIndex
