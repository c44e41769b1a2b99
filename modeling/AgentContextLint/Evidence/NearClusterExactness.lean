import AgentContextLint.Evidence.NearClusters

/-!
# What clusters of near duplicates list

The clusters that `nearClusters` returns are the components of the edges, with all statements of
their records, and list each edge once (`nearClusters_exact`). A different order of the edges leads
to the same components in another order, which the final sort undoes.
-/

namespace AgentContextLint.DuplicationIndex

open Utf16 Metered Sorting ParentForest List

variable {records : List UniqueTextRecord} {edges : List RecordEdge} {limits : DuplicationIndexLimits}
  {sets : List (List Nat)} {index : Nat} {indices : List Nat}
  {indexSets : List (List Nat)} {edge : RecordEdge} {set : List Nat}
  {record : UniqueTextRecord} {i j : Nat}

/-! ## Records -/

/-- Records have members, and no statement is listed twice. -/
structure UniqueRecords (records : List UniqueTextRecord) : Prop where
  inhabited : ∀ record ∈ records, record.members ≠ []
  statements : ((records.flatMap (·.members)).map (·.statementId)).Nodup

/-- The edge between two records has their similarity. -/
def IsNearEdge (records : List UniqueTextRecord) (edge : RecordEdge) : Prop :=
  ∃ leftRecord rightRecord, records[edge.left]? = some leftRecord ∧
    records[edge.right]? = some rightRecord ∧ edge.value = nearEdge leftRecord rightRecord

theorem inside_of_near (near : ∀ edge ∈ edges, IsNearEdge records edge) :
    Inside records.length edges := by
  intro edge member
  rcases near edge member with ⟨_, _, atLeft, atRight, _⟩
  exact ⟨(List.getElem?_eq_some_iff.mp atLeft).1, (List.getElem?_eq_some_iff.mp atRight).1⟩

def statementsAt (records : List UniqueTextRecord) (index : Nat) : List DuplicationIndexEntry :=
  (records[index]?.map (·.members)).getD []

theorem statementsAt_of_getElem?
    (atIndex : records[index]? = some record) : statementsAt records index = record.members := by
  rw [statementsAt, atIndex]
  rfl

theorem exists_of_mem_statementsAt {entry : DuplicationIndexEntry}
    (member : entry ∈ statementsAt records index) :
    ∃ record, records[index]? = some record ∧ entry ∈ record.members := by
  cases atIndex : records[index]? with
  | none =>
    rw [statementsAt, atIndex] at member
    cases member
  | some record =>
    rw [statementsAt_of_getElem? atIndex] at member
    exact ⟨record, rfl, member⟩

section

variable (unique : UniqueRecords records)

include unique

theorem index_of_statement {a b : DuplicationIndexEntry} (inFirst : a ∈ statementsAt records i)
    (inSecond : b ∈ statementsAt records j) (same : a.statementId = b.statementId) : i = j := by
  have distinct := unique.statements
  rw [map_flatMap] at distinct
  have apart := pairwise_iff_getElem.mp (nodup_flatMap.mp distinct).2
  rcases exists_of_mem_statementsAt inFirst with ⟨first, atFirst, memberFirst⟩
  rcases exists_of_mem_statementsAt inSecond with ⟨second, atSecond, memberSecond⟩
  rcases List.getElem?_eq_some_iff.mp atFirst with ⟨insideI, rfl⟩
  rcases List.getElem?_eq_some_iff.mp atSecond with ⟨insideJ, rfl⟩
  have idFirst : a.statementId ∈ records[i].members.map (·.statementId) :=
    mem_map_of_mem memberFirst
  have idSecond : a.statementId ∈ records[j].members.map (·.statementId) :=
    same ▸ mem_map_of_mem memberSecond
  rcases Nat.lt_trichotomy i j with less | eq | greater
  · exact (apart i j insideI insideJ less idFirst idSecond).elim
  · exact eq
  · exact (apart j i insideJ insideI greater idSecond idFirst).elim

theorem exists_statement
    (inside : index < records.length) : ∃ entry, entry ∈ statementsAt records index := by
  have atIndex : records[index]? = some records[index] := getElem?_eq_getElem inside
  rw [statementsAt_of_getElem? atIndex]
  exact exists_mem_of_ne_nil _ (unique.inhabited _ (mem_of_getElem? atIndex))

theorem exists_primary (atIndex : records[index]? = some record) :
    ∃ member ∈ statementsAt records index, primaryStatementId record = member.statementId := by
  rw [statementsAt_of_getElem? atIndex]
  cases members : record.members with
  | nil => exact absurd members (unique.inhabited record (mem_of_getElem? atIndex))
  | cons first rest => exact ⟨first, mem_cons_self, by rw [primaryStatementId, members]; rfl⟩

theorem primary_injective {first second : UniqueTextRecord} (atFirst : records[i]? = some first)
    (atSecond : records[j]? = some second)
    (same : primaryStatementId first = primaryStatementId second) : i = j := by
  rcases exists_primary unique atFirst with ⟨a, inFirst, primaryFirst⟩
  rcases exists_primary unique atSecond with ⟨b, inSecond, primarySecond⟩
  exact index_of_statement unique inFirst inSecond
    (primaryFirst.symm.trans (same.trans primarySecond))

end

/-! ## Clusters of indices -/

def membersAt (records : List UniqueTextRecord) (indices : List Nat) :
    List DuplicationEvidencePointer :=
  sortedEvidence (indices.flatMap (statementsAt records))

def clusterAt (records : List UniqueTextRecord) (edges : List RecordEdge) (indices : List Nat) :
    NearDuplicationCluster where
  edges := sortBy compareEdges
    ((edges.filter fun edge => edge.left ∈ indices ∧ edge.right ∈ indices).map (·.value))
  id := stableClusterId (js "near") ((membersAt records indices).map (·.statementId))
  members := membersAt records indices

def TooLarge (records : List UniqueTextRecord) (limits : DuplicationIndexLimits)
    (indices : List Nat) : Prop := limits.maximumClusterMembers < (membersAt records indices).length

instance (indices : List Nat) : Decidable (TooLarge records limits indices) :=
  inferInstanceAs (Decidable (_ < _))

theorem nearCluster_eq (component : List Nat) : nearCluster records edges limits component =
    if TooLarge records limits (sortBy compare component)
    then .error (limitExceeded .maximumClusterMembers)
    else .ok (clusterAt records edges (sortBy compare component)) := by
  let indices := sortBy compare component
  have checked : nearCluster records edges limits component =
      ((if TooLarge records limits indices then .error (limitExceeded .maximumClusterMembers)
        else .ok ()) >>= fun _ => .ok (clusterAt records edges indices)) := rfl
  rw [checked]
  by_cases large : TooLarge records limits indices
  · rw [if_pos large, if_pos large]
    rfl
  · rw [if_neg large, if_neg large]
    rfl

/-- The indices of each component, in order. -/
def sortedSets (sets : List (List Nat)) : List (List Nat) := sets.map (sortBy compare)

def clustersAt (records : List UniqueTextRecord) (edges : List RecordEdge)
    (limits : DuplicationIndexLimits) (indexSets : List (List Nat)) :
    Except DuplicationIndexError (List NearDuplicationCluster) :=
  if ∃ indices ∈ indexSets, TooLarge records limits indices
  then .error (limitExceeded .maximumClusterMembers)
  else .ok (sortBy (comparingWith compareUnits (·.id)) (indexSets.map (clusterAt records edges)))

theorem mapM_nearCluster (sets : List (List Nat)) : sets.mapM (nearCluster records edges limits) =
      if ∃ indices ∈ sortedSets sets, TooLarge records limits indices
      then .error (limitExceeded .maximumClusterMembers)
      else .ok ((sortedSets sets).map (clusterAt records edges)) := by
  induction sets with
  | nil => rfl
  | cons set rest ih =>
    have sets : sortedSets (set :: rest) = sortBy compare set :: sortedSets rest := rfl
    rw [mapM_cons, nearCluster_eq, sets]
    simp only [exists_mem_cons_iff]
    by_cases large : TooLarge records limits (sortBy compare set)
    · rw [if_pos large, if_pos (Or.inl large)]
      rfl
    · rw [if_neg large, ok_bind, ih]
      by_cases later : ∃ indices ∈ sortedSets rest, TooLarge records limits indices
      · rw [if_pos later, if_pos (Or.inr later)]
        rfl
      · rw [if_neg later, if_neg (not_or.mpr ⟨large, later⟩)]
        rfl

theorem nearClusters_eq {rounds : Nat} (inside : Inside records.length edges)
    (enough : records.length ≤ rounds) : ∃ sets, Components edges sets ∧
      nearClusters rounds records edges limits =
        some (clustersAt records edges limits (sortedSets sets)) := by
  rcases components_eq inside enough with ⟨sets, ran, components⟩
  refine ⟨sets, components, ?_⟩
  rw [nearClusters, ran, Option.bind_eq_bind, Option.bind_some, mapM_nearCluster, clustersAt]
  by_cases large : ∃ indices ∈ sortedSets sets, TooLarge records limits indices
  · rw [if_pos large, if_pos large]
    rfl
  · rw [if_neg large, if_neg large]
    rfl

theorem Components.sorted (components : Components edges sets) :
    Components edges (sortedSets sets) where
  distinct := by
    intro sorted member
    rcases mem_map.mp member with ⟨set, inSets, rfl⟩
    rcases components.distinct set inSets with ⟨distinct, nonempty⟩
    exact ⟨(nodup_sortBy _).mpr distinct, fun none => nonempty
      (Perm.nil_eq (none ▸ sortBy_perm compare set)).symm⟩
  apart := by
    rw [sortedSets, pairwise_map]
    exact components.apart.imp fun apart index inFirst inSecond =>
      apart ((mem_sortBy _).mp inFirst) ((mem_sortBy _).mp inSecond)
  joined := by
    intro sorted member first inFirst second
    rcases mem_map.mp member with ⟨set, inSets, rfl⟩
    rw [mem_sortBy]
    exact components.joined set inSets first ((mem_sortBy _).mp inFirst) second
  covered := by
    intro index touched
    rcases components.covered index touched with ⟨set, inSets, member⟩
    exact ⟨_, mem_map_of_mem inSets, (mem_sortBy _).mpr member⟩

/-! ## What a cluster lists -/

theorem mem_membersAt {pointer : DuplicationEvidencePointer} : pointer ∈ membersAt records indices ↔
      ∃ index ∈ indices, ∃ entry ∈ statementsAt records index, evidence entry = pointer := by
  rw [membersAt, sortedEvidence, mem_sortBy, map_flatMap, mem_flatMap]
  simp only [mem_map]

def Occurs (records : List UniqueTextRecord) (cluster : NearDuplicationCluster) (index : Nat) : Prop :=
  ∃ entry ∈ statementsAt records index, evidence entry ∈ cluster.members

theorem occurs_clusterAt (unique : UniqueRecords records)
    (known : ∀ index ∈ indices, index < records.length) :
    Occurs records (clusterAt records edges indices) index ↔ index ∈ indices := by
  constructor
  · intro occurs
    rcases occurs with ⟨entry, inRecord, listed⟩
    rcases mem_membersAt.mp listed with ⟨other, inIndices, otherEntry, inOther, same⟩
    have ids : otherEntry.statementId = entry.statementId :=
      congrArg DuplicationEvidencePointer.statementId same
    exact index_of_statement unique inOther inRecord ids ▸ inIndices
  · intro member
    rcases exists_statement unique (known index member) with ⟨entry, inRecord⟩
    exact ⟨entry, inRecord, mem_membersAt.mpr ⟨index, member, entry, inRecord, rfl⟩⟩

theorem nodup_membersAt (unique : UniqueRecords records)
    (distinct : indices.Nodup) : ((membersAt records indices).map (·.statementId)).Nodup := by
  rw [membersAt, sortedEvidence, ((sortBy_perm _ _).map _).nodup_iff, map_map]
  have same : (·.statementId) ∘ evidence = fun entry => entry.statementId := rfl
  rw [same, map_flatMap]
  have statements := unique.statements
  rw [map_flatMap] at statements
  have each := (nodup_flatMap.mp statements).1
  apply nodup_flatMap.mpr
  constructor
  · intro index _
    cases atIndex : records[index]? with
    | none =>
      rw [statementsAt, atIndex]
      exact nodup_nil
    | some record =>
      rw [statementsAt_of_getElem? atIndex]
      exact each record (mem_of_getElem? atIndex)
  · refine distinct.imp fun apart id inFirst inSecond => ?_
    rcases mem_map.mp inFirst with ⟨a, inA, rfl⟩
    rcases mem_map.mp inSecond with ⟨b, inB, ids⟩
    exact apart (index_of_statement unique inA inB ids.symm)

/-! ## What all clusters list -/

theorem sum_ite_eq {α : Type} (sets : List α) (holds : α → Prop) [DecidablePred holds] (k : Nat) :
    (sets.map fun set => if holds set then k else 0).sum = k * sets.countP (holds ·) := by
  induction sets with
  | nil => rfl
  | cons set rest ih =>
    rw [map_cons, sum_cons, ih, countP_cons]
    by_cases here : holds set
    · rw [if_pos here, if_pos (decide_eq_true here), Nat.mul_add, Nat.mul_one, Nat.add_comm]
    · rw [if_neg here, if_neg (by simpa using here), Nat.zero_add, Nat.add_zero]

/-- Lists that take each member once have them all. -/
theorem flatMap_filter_perm {α β : Type} [DecidableEq β] {sets : List α} {list : List β}
    (takes : α → β → Prop) [∀ set, DecidablePred (takes set)]
    (once : ∀ b ∈ list, sets.countP (takes · b) = 1) :
    (sets.flatMap fun set => list.filter (takes set)).Perm list := by
  apply perm_iff_count.mpr
  intro b
  have each : (fun set => count b (list.filter (takes set))) =
      fun set => if takes set b then count b list else 0 := by
    funext set
    by_cases taken : takes set b
    · rw [if_pos taken]
      exact count_filter (decide_eq_true taken)
    · rw [if_neg taken]
      exact count_eq_zero.mpr fun member =>
        taken (of_decide_eq_true (mem_filter.mp member).2)
  rw [count_flatMap, Function.comp_def, each, sum_ite_eq]
  by_cases member : b ∈ list
  · rw [once b member, Nat.mul_one]
  · rw [count_eq_zero.mpr member, Nat.zero_mul]

theorem Components.both_ends (components : Components edges sets) (inEdges : edge ∈ edges) (inSets : set ∈ sets) :
    edge.left ∈ set ∧ edge.right ∈ set ↔ edge.left ∈ set := by
  refine ⟨And.left, fun left => ⟨left, ?_⟩⟩
  exact (components.joined set inSets edge.left left edge.right).mpr
    (.single (Or.inl (mem_map_of_mem inEdges)))

theorem Components.countP_edge (components : Components edges sets)
    (inEdges : edge ∈ edges) : sets.countP (fun set => edge.left ∈ set ∧ edge.right ∈ set) = 1 := by
  have touched : Touched (edges.map linkOf) edge.left :=
    ⟨linkOf edge, mem_map_of_mem inEdges, Or.inl rfl⟩
  rcases components.covered edge.left touched with ⟨set, inSets, left⟩
  rcases append_of_mem inSets with ⟨front, rest, rfl⟩
  have apart := components.apart
  rw [pairwise_append] at apart
  rcases apart with ⟨_, behind, across⟩
  have notFront : front.countP (fun set => edge.left ∈ set ∧ edge.right ∈ set) = 0 := by
    rw [countP_eq_zero]
    intro other member both
    exact across other member set mem_cons_self (of_decide_eq_true both).1 left
  have notRest : rest.countP (fun set => edge.left ∈ set ∧ edge.right ∈ set) = 0 := by
    rw [countP_eq_zero]
    intro other member both
    exact (pairwise_cons.mp behind).1 other member left (of_decide_eq_true both).1
  rw [countP_append, notFront, Nat.zero_add, countP_cons, notRest,
    if_pos (decide_eq_true ((components.both_ends inEdges inSets).mpr left))]

theorem edges_clusters (components : Components edges indexSets) :
    ((indexSets.map (clusterAt records edges)).flatMap (·.edges)).Perm (edges.map (·.value)) := by
  rw [flatMap_map]
  have whole := (flatMap_filter_perm (fun (set : List Nat) (edge : RecordEdge) =>
    edge.left ∈ set ∧ edge.right ∈ set) fun edge => components.countP_edge).map (·.value)
  rw [map_flatMap] at whole
  refine Perm.trans ?_ whole
  exact Perm.flatMap_left _ fun set _ => sortBy_perm _ _

/-- The clusters are the connected components of the edges that have an edge, with all of their
statements and edges. -/
structure ClustersOf (records : List UniqueTextRecord) (edges : List RecordEdge)
    (clusters : List NearDuplicationCluster) : Prop where
  once : clusters.Pairwise fun first second =>
    ∀ index, ¬ (Occurs records first index ∧ Occurs records second index)
  share : ∀ first second, (∃ cluster ∈ clusters,
    Occurs records cluster first ∧ Occurs records cluster second) ↔
      Path (edges.map linkOf) first second
  listsAll : (clusters.flatMap (·.edges)).Perm (edges.map (·.value))
  ends : ∀ cluster ∈ clusters, ∀ value ∈ cluster.edges, ∃ edge ∈ edges, edge.value = value ∧
    Occurs records cluster edge.left ∧ Occurs records cluster edge.right
  members : ∀ cluster ∈ clusters, ∀ pointer, pointer ∈ cluster.members ↔
    ∃ index, Occurs records cluster index ∧ ∃ entry ∈ statementsAt records index,
      evidence entry = pointer
  listed : ∀ cluster ∈ clusters, (cluster.members.map (·.statementId)).Nodup

theorem Components.inside (components : Components edges sets)
    {recordCount : Nat} (within : Inside recordCount edges) (inSets : set ∈ sets) (member : index ∈ set) : index < recordCount := by
  have touched := ((components.joined set inSets index member index).mp member).touched
  rcases touched with ⟨link, inLinks, ends⟩
  rcases mem_map.mp inLinks with ⟨edge, inEdges, rfl⟩
  rcases ends with rfl | rfl
  · exact (within edge inEdges).1
  · exact (within edge inEdges).2

theorem clustersOf (unique : UniqueRecords records) (within : Inside records.length edges) (components : Components edges indexSets) :
    ClustersOf records edges (indexSets.map (clusterAt records edges)) := by
  have occurs : ∀ indices ∈ indexSets, ∀ {index},
      Occurs records (clusterAt records edges indices) index ↔ index ∈ indices :=
    fun indices inSets => occurs_clusterAt unique fun index => components.inside within inSets
  constructor
  · rw [pairwise_map]
    refine components.apart.imp_of_mem ?_
    intro first second inFirst inSecond apart index both
    exact apart ((occurs first inFirst).mp both.1) ((occurs second inSecond).mp both.2)
  · intro first second
    constructor
    · intro shared
      rcases shared with ⟨cluster, member, hasFirst, hasSecond⟩
      rcases mem_map.mp member with ⟨indices, inSets, rfl⟩
      exact (components.joined indices inSets first ((occurs indices inSets).mp hasFirst) second).mp
        ((occurs indices inSets).mp hasSecond)
    · intro path
      rcases components.covered first path.touched with ⟨indices, inSets, hasFirst⟩
      exact ⟨_, mem_map_of_mem inSets, (occurs indices inSets).mpr hasFirst,
        (occurs indices inSets).mpr ((components.joined indices inSets first hasFirst second).mpr path)⟩
  · exact edges_clusters components
  · intro cluster member value listed
    rcases mem_map.mp member with ⟨indices, inSets, rfl⟩
    rcases mem_map.mp ((mem_sortBy _).mp listed) with ⟨edge, inFilter, rfl⟩
    rcases mem_filter.mp inFilter with ⟨inEdges, ends⟩
    have both := of_decide_eq_true ends
    exact ⟨edge, inEdges, rfl, (occurs indices inSets).mpr both.1, (occurs indices inSets).mpr both.2⟩
  · intro cluster member pointer
    rcases mem_map.mp member with ⟨indices, inSets, rfl⟩
    simp only [occurs indices inSets]
    exact mem_membersAt
  · intro cluster member
    rcases mem_map.mp member with ⟨indices, inSets, rfl⟩
    exact nodup_membersAt unique (components.distinct indices inSets).1

theorem ClustersOf.perm {clusters others : List NearDuplicationCluster}
    (exact_ : ClustersOf records edges clusters) (perm : clusters.Perm others) :
    ClustersOf records edges others where
  once := (perm.pairwise_iff fun apart index both => apart index both.symm).mp exact_.once
  share := by
    intro first second
    simp only [← perm.mem_iff]
    exact exact_.share first second
  listsAll := (Perm.flatMap_right _ perm.symm).trans exact_.listsAll
  ends := fun cluster member => exact_.ends cluster (perm.mem_iff.mpr member)
  members := fun cluster member => exact_.members cluster (perm.mem_iff.mpr member)
  listed := fun cluster member => exact_.listed cluster (perm.mem_iff.mpr member)

/-! ## Reordered edges -/

section Reordered

variable {others : List RecordEdge}

theorem path_perm (perm : edges.Perm others) {first second : Nat} :
    Path (edges.map linkOf) first second ↔ Path (others.map linkOf) first second := by
  have same : ∀ link, link ∈ edges.map linkOf ↔ link ∈ others.map linkOf :=
    fun _ => (perm.map linkOf).mem_iff
  unfold ParentForest.Path
  simp only [same]

/-- Of one relation there is one list of components, up to their order. -/
theorem sortedSets_perm (perm : edges.Perm others) {sets otherSets : List (List Nat)}
    (components : Components edges sets) (otherComponents : Components others otherSets) :
    (sortedSets sets).Perm (sortedSets otherSets) := by
  have oneWay : ∀ {edges others : List RecordEdge} {sets otherSets : List (List Nat)},
      edges.Perm others → Components edges sets → Components others otherSets →
        sortedSets sets ⊆ sortedSets otherSets := by
    intro edges others sets otherSets perm components otherComponents sorted member
    rcases mem_map.mp member with ⟨set, inSets, rfl⟩
    rcases components.distinct set inSets with ⟨distinct, nonempty⟩
    rcases exists_mem_of_ne_nil _ nonempty with ⟨first, inSet⟩
    have itself := (components.joined set inSets first inSet first).mp inSet
    rcases otherComponents.covered first ((path_perm perm).mp itself).touched with
      ⟨otherSet, inOthers, inOther⟩
    have same : set.Perm otherSet := by
      apply (perm_ext_iff_of_nodup distinct (otherComponents.distinct otherSet inOthers).1).mpr
      intro index
      rw [components.joined set inSets first inSet index,
        otherComponents.joined otherSet inOthers first inOther index, path_perm perm]
    have sortedSame : sortBy compare set = sortBy compare otherSet :=
      sortBy_eq_of_perm compare (fun _ _ _ _ tie => Nat.compare_eq_eq.mp tie) same
    rw [sortedSame]
    exact mem_map_of_mem inOthers
  have distinct : ∀ {edges : List RecordEdge} {sets : List (List Nat)}, Components edges sets →
      (sortedSets sets).Nodup := by
    intro edges sets components
    have sorted := components.sorted
    refine sorted.apart.imp_of_mem ?_
    intro first second inFirst _ apart same
    rcases exists_mem_of_ne_nil _ (sorted.distinct first inFirst).2 with ⟨index, member⟩
    exact apart member (same ▸ member)
  apply (perm_ext_iff_of_nodup (distinct components) (distinct otherComponents)).mpr
  exact fun sorted => ⟨fun member => oneWay perm components otherComponents member,
    fun member => oneWay perm.symm otherComponents components member⟩

theorem value_of_tie (unique : UniqueRecords records) {first second : RecordEdge}
    (nearFirst : IsNearEdge records first) (nearSecond : IsNearEdge records second)
    (tie : compareEdges first.value second.value = .eq) : first.value = second.value := by
  rcases nearFirst with ⟨left, right, atLeft, atRight, firstValue⟩
  rcases nearSecond with ⟨otherLeft, otherRight, atOtherLeft, atOtherRight, secondValue⟩
  rw [compareEdges, Ordering.then_eq_eq, compareUnits_eq_iff, compareUnits_eq_iff, firstValue,
    secondValue] at tie
  have sameLeft := primary_injective unique atLeft atOtherLeft tie.1
  have sameRight := primary_injective unique atRight atOtherRight tie.2
  rw [sameLeft, atOtherLeft] at atLeft
  rw [sameRight, atOtherRight] at atRight
  cases atLeft
  cases atRight
  exact firstValue.trans secondValue.symm

instance : Std.TransCmp compareEdges :=
  inferInstanceAs (Std.TransCmp (compareLex
    (comparingWith compareUnits fun edge : NearDuplicationEdge => edge.leftStatementId)
    (comparingWith compareUnits fun edge : NearDuplicationEdge => edge.rightStatementId)))

theorem clusterAt_perm (unique : UniqueRecords records)
    (near : ∀ edge ∈ edges, IsNearEdge records edge) (perm : edges.Perm others)
    (indices : List Nat) : clusterAt records edges indices = clusterAt records others indices := by
  have sameEdges : (clusterAt records edges indices).edges =
      (clusterAt records others indices).edges := by
    apply sortBy_eq_of_perm compareEdges _ ((perm.filter _).map _)
    intro first inFirst second inSecond tie
    rcases mem_map.mp inFirst with ⟨firstEdge, firstListed, rfl⟩
    rcases mem_map.mp inSecond with ⟨secondEdge, secondListed, rfl⟩
    exact value_of_tie unique (near firstEdge (mem_filter.mp firstListed).1)
      (near secondEdge (mem_filter.mp secondListed).1) tie
  exact congrArg (fun edges => NearDuplicationCluster.mk edges _ _) sameEdges

theorem clustersAt_perm (unique : UniqueRecords records)
    (near : ∀ edge ∈ edges, IsNearEdge records edge) (perm : edges.Perm others)
    {indexSets otherSets : List (List Nat)} (setsPerm : indexSets.Perm otherSets)
    (apart : ∀ clusters, clustersAt records edges limits indexSets = .ok clusters →
      (clusters.map (·.id)).Nodup) :
    clustersAt records others limits otherSets = clustersAt records edges limits indexSets := by
  have sameLarge : (∃ indices ∈ otherSets, TooLarge records limits indices) ↔
      ∃ indices ∈ indexSets, TooLarge records limits indices := by
    simp only [setsPerm.mem_iff]
  unfold clustersAt at apart ⊢
  by_cases large : ∃ indices ∈ indexSets, TooLarge records limits indices
  · rw [if_pos large, if_pos (sameLarge.mpr large)]
  · rw [if_neg large] at apart ⊢
    rw [if_neg (mt sameLarge.mp large)]
    have distinct := apart _ rfl
    rw [((sortBy_perm _ _).map _).nodup_iff] at distinct
    have same : otherSets.map (clusterAt records others) = otherSets.map (clusterAt records edges) :=
      map_congr_left fun indices _ => (clusterAt_perm unique near perm indices).symm
    rw [same]
    refine congrArg Except.ok (sortBy_eq_of_perm _ ?_ (setsPerm.map _)).symm
    intro first inFirst second inSecond tie
    exact inj_on_of_nodup_map distinct inFirst inSecond (compareUnits_eq_iff.mp tie)

end Reordered

/-! ## The exact clusters -/

/-- The loops end, the clusters are the components with an edge unless one is too large, and their
order in the result is not that of the edges, as long as no two clusters get one identifier. -/
theorem nearClusters_exact (unique : UniqueRecords records)
    (near : ∀ edge ∈ edges, IsNearEdge records edge) {rounds : Nat}
    (enough : records.length ≤ rounds) :
    (∀ parent, Reachable records.length rounds parent → ∀ value < records.length,
      (find rounds parent value).isSome = true) ∧
    ∃ outcome, nearClusters rounds records edges limits = some outcome ∧
      (∀ clusters, outcome = .ok clusters → ClustersOf records edges clusters) ∧
      (∀ error, outcome = .error error → error = limitExceeded .maximumClusterMembers ∧
        ∃ indices : List Nat, (∀ first ∈ indices, ∀ second,
          second ∈ indices ↔ Path (edges.map linkOf) first second) ∧
          limits.maximumClusterMembers < (membersAt records indices).length) ∧
      ∀ others, edges.Perm others →
        (∀ clusters, outcome = .ok clusters → (clusters.map (·.id)).Nodup) →
          nearClusters rounds records others limits = some outcome := by
  have inside := inside_of_near near
  refine ⟨fun parent reachable value => reachable.find_isSome enough, ?_⟩
  rcases nearClusters_eq inside enough with ⟨sets, components, ran⟩
  refine ⟨_, ran, ?_, ?_, ?_⟩
  · intro clusters done
    unfold clustersAt at done
    split_ifs at done
    cases done
    exact (clustersOf unique inside components.sorted).perm (sortBy_perm _ _).symm
  · intro error failed
    unfold clustersAt at failed
    split_ifs at failed with large
    cases failed
    rcases large with ⟨indices, inSets, large⟩
    exact ⟨rfl, indices, components.sorted.joined indices inSets, large⟩
  · intro others perm apart
    have otherNear : ∀ edge ∈ others, IsNearEdge records edge :=
      fun edge member => near edge (perm.mem_iff.mpr member)
    rcases nearClusters_eq (inside_of_near otherNear) enough with ⟨otherSets, otherComponents, also⟩
    rw [also, clustersAt_perm unique near perm (sortedSets_perm perm components otherComponents) apart]

def firstStatement (statementId normalizedText : Text) : DuplicationIndexEntry where
  documentId := js "document"
  nodeIds := [js "node"]
  normalizedText := normalizedText
  range := ⟨js "source", ⟨0, 0, 0, 0⟩, ⟨0, 0, 0, 0⟩⟩
  statementId := statementId

def recordOf (statementId shingle : Text) : UniqueTextRecord :=
  ⟨[firstStatement statementId (shingle ++ statementId)], shingle ++ statementId, [shingle]⟩

/-- Three records with one shingle, and two with another. -/
def fiveRecords : List UniqueTextRecord :=
  [recordOf (js "a") (js "run"), recordOf (js "b") (js "run"), recordOf (js "c") (js "run"),
    recordOf (js "d") (js "test"), recordOf (js "e") (js "test")]

/-- A chain of three records, and an edge beside it. -/
def chainEdges : List RecordEdge :=
  [⟨3, 4, ⟨1, js "d", js "e", 10000, 1⟩⟩, ⟨1, 2, ⟨1, js "b", js "c", 10000, 1⟩⟩,
    ⟨0, 1, ⟨1, js "a", js "b", 10000, 1⟩⟩]

def defaultLimits : DuplicationIndexLimits :=
  ⟨16, 2000000, 100000, 100000, 4096, 65536, 1024, 4096, 67108864, 2000000, 12, 8000⟩

/-- A chain is one cluster, and the edge beside it another, in whatever order the edges come. -/
theorem nearClusters_exact_pair : ∃ clusters,
    nearClusters 5 fiveRecords chainEdges defaultLimits = some (.ok clusters) ∧
      clusters.map (fun cluster => cluster.members.map (·.statementId)) =
        [[js "d", js "e"], [js "a", js "b", js "c"]] ∧
      ClustersOf fiveRecords chainEdges clusters ∧
      nearClusters 5 fiveRecords chainEdges.reverse defaultLimits = some (.ok clusters) := by
  have unique : UniqueRecords fiveRecords := ⟨by decide, by decide⟩
  have near : ∀ edge ∈ chainEdges, IsNearEdge fiveRecords edge :=
    forall_mem_cons.mpr ⟨⟨_, _, rfl, rfl, by decide⟩, forall_mem_cons.mpr
      ⟨⟨_, _, rfl, rfl, by decide⟩, forall_mem_singleton.mpr ⟨_, _, rfl, rfl, by decide⟩⟩⟩
  have facts : ((nearClusters 5 fiveRecords chainEdges defaultLimits).bind fun outcome =>
      outcome.toOption.map fun clusters => (clusters.map fun cluster =>
        cluster.members.map (·.statementId), decide (clusters.map (·.id)).Nodup)) =
          some ([[js "d", js "e"], [js "a", js "b", js "c"]], true) := by decide +kernel
  have exact_ : _ ∧ ∃ outcome, nearClusters 5 fiveRecords chainEdges defaultLimits = some outcome ∧
      (∀ clusters, outcome = .ok clusters → ClustersOf fiveRecords chainEdges clusters) ∧ _ ∧
      ∀ others, chainEdges.Perm others →
        (∀ clusters, outcome = .ok clusters → (clusters.map (·.id)).Nodup) →
          nearClusters 5 fiveRecords others defaultLimits = some outcome :=
    nearClusters_exact unique near (Nat.le_refl 5)
  rcases exact_ with ⟨_, outcome, ran, done, _, reordered⟩
  rcases Option.bind_eq_some_iff.mp facts with ⟨_, also, facts⟩
  cases ran.symm.trans also
  rcases Option.map_eq_some_iff.mp facts with ⟨clusters, found, facts⟩
  rcases Prod.ext_iff.mp facts with ⟨statements, apart⟩
  cases eq_ok_of_toOption found
  refine ⟨clusters, ran, statements, done clusters rfl,
    reordered _ (reverse_perm chainEdges).symm ?_⟩
  intro others same
  cases same
  exact of_decide_eq_true apart

end AgentContextLint.DuplicationIndex
