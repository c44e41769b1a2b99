import AgentContextLint.Evidence.DuplicationIndex
import AgentContextLint.Lib.ParentForest

/-!
# Clusters of near duplicates

`nearClusters` finds the connected components of the edges.

* No parent is ever greater than its child, so that the loops of `find` end (`find_eq`), and two
  records have the same root exactly if the edges so far join them (`unions_eq`).
* The components that are collected are the classes of this relation (`components_eq`).
* `nearClusters_exact`: so are the clusters, whatever the order of the edges is.
-/

namespace AgentContextLint.DuplicationIndex

open Utf16 Metered Sorting ParentForest List
open Option (bind_eq_bind bind_some)
open OrderedMap (empty get?_eq_some get?_set mem_values values)

variable {parent : List Nat} {links : List (Nat × Nat)} {rounds x root : Nat}

/-! ## Disjoint sets -/

theorem climb_eq (shrinking : Shrinking parent) (climbs : Climbs parent x root)
    (enough : x < rounds) : climb parent rounds x = some root := by
  induction rounds generalizing x with
  | zero => exact absurd enough (Nat.not_lt_zero _)
  | succ rounds ih =>
    rw [climb]
    cases climbs with
    | root own => rw [if_pos own]
    | @step _ p _ above apart rest =>
      have notOwn : parent[x]? ≠ some x := fun own =>
        apart (Option.some.inj (above.symm.trans own))
      have less : p < x := Nat.lt_of_le_of_ne (shrinking x _ above) apart
      rw [if_neg notOwn, above]
      exact ih rest (Nat.lt_of_lt_of_le less (Nat.le_of_lt_succ enough))

theorem compress_eq (shrinking : Shrinking parent) (climbs : Climbs parent x root)
    (enough : x < rounds) :
    ∃ others, compress root rounds parent x = some others ∧ Keeps parent others := by
  induction rounds generalizing parent x with
  | zero => exact absurd enough (Nat.not_lt_zero _)
  | succ rounds ih =>
    rw [compress]
    by_cases done : parent[x]? = some root
    · exact ⟨parent, if_pos done, Keeps.refl parent⟩
    · rw [if_neg done]
      cases climbs with
      | root own => exact absurd own done
      | @step _ p _ above apart rest =>
        rw [above]
        have whole : Climbs parent x root := .step above apart rest
        have less : p < x := Nat.lt_of_le_of_ne (shrinking x _ above) apart
        have keeps := whole.keeps shrinking
        rcases ih (keeps.shrinking shrinking) (keeps.climbs rest)
          (Nat.lt_of_lt_of_le less (Nat.le_of_lt_succ enough)) with ⟨others, ran, later⟩
        exact ⟨others, ran, keeps.trans later⟩

/-- The loops end, with the root, and have changed no root. -/
theorem find_eq (shrinking : Shrinking parent) (inside : x < parent.length)
    (enough : parent.length ≤ rounds) : ∃ root others, find rounds parent x = some (root, others) ∧
      Climbs parent x root ∧ Keeps parent others := by
  rcases exists_climbs shrinking inside with ⟨root, climbs⟩
  rcases compress_eq shrinking climbs (inside.trans_le enough) with ⟨others, ran, keeps⟩
  refine ⟨root, others, ?_, climbs, keeps⟩
  rw [find, climb_eq shrinking climbs (inside.trans_le enough), bind_eq_bind,
    bind_some, ran]
  rfl

theorem union_eq {y : Nat} (represents : Represents links parent) (inX : x < parent.length)
    (inY : y < parent.length) (enough : parent.length ≤ rounds) :
    ∃ others, union rounds parent x y = some others ∧ others.length = parent.length ∧
      Represents ((x, y) :: links) others := by
  rcases find_eq represents.shrinking inX enough with ⟨rootX, between, ranX, climbsX, keepsX⟩
  have afterX := represents.of_keeps keepsX
  have sameLength := keepsX.length
  rcases find_eq afterX.shrinking (sameLength ▸ inY) (sameLength ▸ enough) with
    ⟨rootY, last, ranY, climbsY, keepsY⟩
  have afterY := afterX.of_keeps keepsY
  have fromX := keepsY.climbs (keepsX.climbs climbsX)
  have fromY := keepsY.climbs climbsY
  have length := keepsY.length.trans sameLength
  unfold union
  rw [ranX, bind_eq_bind, bind_some]
  dsimp only
  rw [ranY, bind_some]
  dsimp only
  split_ifs with same lower
  · subst same
    exact ⟨last, rfl, length, afterY.idle fromX fromY⟩
  · exact ⟨_, rfl, length_set.trans length, afterY.link fromX fromY lower⟩
  · have higher : rootY < rootX := Nat.lt_of_le_of_ne (Nat.not_lt.mp lower) (Ne.symm same)
    exact ⟨_, rfl, length_set.trans length,
      (afterY.link fromY fromX higher).congr fun _ _ => connected_swap⟩

/-- The parents that unions and searches lead to. -/
inductive Reachable (recordCount rounds : Nat) : List Nat → Prop
  | start : Reachable recordCount rounds (range recordCount)
  | searched {parent others : List Nat} {value root : Nat} (before : Reachable recordCount rounds parent)
      (inside : value < recordCount) (ran : find rounds parent value = some (root, others)) :
      Reachable recordCount rounds others
  | joined {parent others : List Nat} {left right : Nat}
      (before : Reachable recordCount rounds parent) (inLeft : left < recordCount)
      (inRight : right < recordCount) (ran : union rounds parent left right = some others) :
      Reachable recordCount rounds others

theorem Reachable.represents {recordCount : Nat} (enough : recordCount ≤ rounds)
    (reachable : Reachable recordCount rounds parent) :
    parent.length = recordCount ∧ ∃ links, Represents links parent := by
  induction reachable with
  | start => exact ⟨length_range, [], represents_range _⟩
  | searched _ inside ran ih =>
    rcases ih with ⟨rfl, links, represents⟩
    rcases find_eq represents.shrinking inside enough with ⟨_, _, also, _, keeps⟩
    cases ran.symm.trans also
    exact ⟨keeps.length, links, represents.of_keeps keeps⟩
  | joined _ inLeft inRight ran ih =>
    rcases ih with ⟨rfl, links, represents⟩
    rcases union_eq represents inLeft inRight enough with ⟨_, also, length, linked⟩
    cases ran.symm.trans also
    exact ⟨length, _, linked⟩

/-- The loops of a search end on all of these parents. -/
theorem Reachable.find_isSome {recordCount value : Nat} (enough : recordCount ≤ rounds)
    (reachable : Reachable recordCount rounds parent) (inside : value < recordCount) :
    (find rounds parent value).isSome = true := by
  rcases reachable.represents enough with ⟨rfl, links, represents⟩
  rcases find_eq represents.shrinking inside enough with ⟨_, _, ran, _, _⟩
  rw [ran]
  rfl

/-! ## Components -/

def linkOf (edge : RecordEdge) : Nat × Nat := (edge.left, edge.right)

def Inside (recordCount : Nat) (edges : List RecordEdge) : Prop :=
  ∀ edge ∈ edges, edge.left < recordCount ∧ edge.right < recordCount

variable {edges : List RecordEdge} {recordCount : Nat} {sets : OrderedMap Nat (List Nat)}

theorem unions_eq (represents : Represents links parent) (length : parent.length = recordCount)
    (inside : Inside recordCount edges) (enough : recordCount ≤ rounds) :
    ∃ others, edges.foldlM (unionEdge rounds) parent = some others ∧
      others.length = recordCount ∧ Represents ((edges.map linkOf).reverse ++ links) others := by
  induction edges generalizing parent links with
  | nil => exact ⟨parent, rfl, length, represents⟩
  | cons edge rest ih =>
    have ends := inside edge mem_cons_self
    rcases union_eq represents (length ▸ ends.1) (length ▸ ends.2) (length ▸ enough) with
      ⟨next, ran, sameLength, joined⟩
    rcases ih joined (sameLength.trans length) fun other member =>
      inside other (mem_cons_of_mem _ member) with ⟨others, later, whole, all⟩
    refine ⟨others, ?_, whole, ?_⟩
    · rw [foldlM_cons, unionEdge, ran]
      exact later
    · rw [map_cons, reverse_cons, append_assoc]
      exact all

theorem mem_insertIndex {set : List Nat} {index other : Nat} :
    other ∈ insertIndex set index ↔ other ∈ set ∨ other = index := by
  unfold insertIndex
  split_ifs with old
  · exact ⟨.inl, fun either => either.elim id fun eq => eq ▸ old⟩
  · rw [mem_append, mem_singleton]

theorem nodup_insertIndex {set : List Nat} {index : Nat} (distinct : set.Nodup) :
    (insertIndex set index).Nodup := by
  unfold insertIndex
  split_ifs with old
  · exact distinct
  · exact nodup_append_comm.mpr (nodup_cons.mpr ⟨old, distinct⟩)

/-- The sets that are collected are those of the ends of edges with one root. -/
structure Collected (parent : List Nat) (edges : List RecordEdge)
    (sets : OrderedMap Nat (List Nat)) : Prop where
  distinct : ∀ root set, sets.get? root = some set → set.Nodup ∧ set ≠ []
  members : ∀ root index, index ∈ (sets.get? root).getD [] ↔
    ∃ edge ∈ edges, Climbs parent edge.left root ∧ (index = edge.left ∨ index = edge.right)

theorem collectEdge_eq {edge : RecordEdge}
    (shrinking : Shrinking parent) (collected : Collected parent edges sets)
    (inside : edge.left < parent.length) (enough : parent.length ≤ rounds) :
    ∃ others more, collectEdge rounds (parent, sets) edge = some (others, more) ∧
      Keeps parent others ∧ Collected parent (edges ++ [edge]) more := by
  rcases find_eq shrinking inside enough with ⟨root, others, ran, climbs, keeps⟩
  refine ⟨others, _, by rw [collectEdge, ran]; rfl, keeps, ?_, ?_⟩
  · intro asked set found
    rw [get?_set] at found
    split_ifs at found with here
    · cases found
      have old : ((sets.get? root).getD []).Nodup := by
        cases present : sets.get? root with
        | none => exact nodup_nil
        | some set => exact (collected.distinct root set present).1
      refine ⟨nodup_insertIndex (nodup_insertIndex old), ?_⟩
      exact ne_nil_of_mem (mem_insertIndex.mpr (.inr rfl))
    · exact collected.distinct asked set found
  · intro asked index
    rw [get?_set]
    have ours : ∀ {index}, (∃ other ∈ edges ++ [edge], Climbs parent other.left asked ∧
        (index = other.left ∨ index = other.right)) ↔
        index ∈ (sets.get? asked).getD [] ∨
          Climbs parent edge.left asked ∧ (index = edge.left ∨ index = edge.right) := by
      intro index
      rw [collected.members]
      constructor
      · intro found
        rcases found with ⟨other, member, facts⟩
        rcases mem_append.mp member with old | new
        · exact .inl ⟨other, old, facts⟩
        · exact .inr (mem_singleton.mp new ▸ facts)
      · intro either
        rcases either with ⟨other, old, facts⟩ | facts
        · exact ⟨other, mem_append_left _ old, facts⟩
        · exact ⟨edge, mem_append_right _ mem_cons_self, facts⟩
    rw [ours]
    split_ifs with here
    · subst here
      rw [Option.getD_some, mem_insertIndex, mem_insertIndex, or_assoc, and_iff_right climbs]
    · have elsewhere : ¬ Climbs parent edge.left asked := fun also => here (climbs.unique also)
      rw [or_iff_left fun facts => elsewhere facts.1]

theorem collected_eq {rest : List RecordEdge}
    (shrinking : Shrinking parent) (collected : Collected parent edges sets)
    (inside : Inside parent.length rest) (enough : parent.length ≤ rounds) :
    ∃ others more, rest.foldlM (collectEdge rounds) (parent, sets) = some (others, more) ∧
      Collected parent (edges ++ rest) more := by
  induction rest generalizing parent edges sets with
  | nil => exact ⟨parent, sets, rfl, by rwa [append_nil]⟩
  | cons edge rest ih =>
    rcases collectEdge_eq shrinking collected (inside edge mem_cons_self).1 enough with
      ⟨next, more, ran, keeps, grown⟩
    have moved : Collected next (edges ++ [edge]) more :=
      ⟨grown.distinct, fun root index => (grown.members root index).trans
        (by simp only [keeps.climbs_iff shrinking])⟩
    rcases ih (keeps.shrinking shrinking) moved
      (fun other member => keeps.length ▸ inside other (mem_cons_of_mem _ member))
      (keeps.length ▸ enough) with ⟨others, last, later, final⟩
    refine ⟨others, last, ?_, ?_⟩
    · rw [foldlM_cons, ran]
      exact later
    · rw [append_assoc, singleton_append] at final
      exact ⟨final.distinct, fun root index => (final.members root index).trans
        (by simp only [keeps.climbs_iff shrinking])⟩

/-- The sets are the connected components of the edges that have an edge. -/
structure Components (edges : List RecordEdge) (sets : List (List Nat)) : Prop where
  distinct : ∀ set ∈ sets, set.Nodup ∧ set ≠ []
  apart : sets.Pairwise Disjoint
  joined : ∀ set ∈ sets, ∀ first ∈ set, ∀ second,
    second ∈ set ↔ Path (edges.map linkOf) first second
  covered : ∀ index, Touched (edges.map linkOf) index → ∃ set ∈ sets, index ∈ set

theorem components_of_collected
    (represents : Represents (edges.map linkOf) parent) (inside : Inside parent.length edges)
    (collected : Collected parent edges sets) : Components edges sets.values := by
  have sameRoot : ∀ {edge}, edge ∈ edges → ∀ {root}, Climbs parent edge.left root →
      Climbs parent edge.right root := by
    intro edge member root climbs
    have link : Connected (edges.map linkOf) edge.left edge.right :=
      Relation.EqvGen.rel _ _ (mem_map_of_mem member)
    rcases (represents.same _ _).mpr link with same | ⟨other, first, second⟩
    · exact same ▸ climbs
    · exact climbs.unique first ▸ second
  have members : ∀ root index, index ∈ (sets.get? root).getD [] ↔
      Touched (edges.map linkOf) index ∧ Climbs parent index root := by
    intro root index
    rw [collected.members]
    constructor
    · intro found
      rcases found with ⟨edge, member, climbs, rfl | rfl⟩
      · exact ⟨⟨linkOf edge, mem_map_of_mem member, .inl rfl⟩, climbs⟩
      · exact ⟨⟨linkOf edge, mem_map_of_mem member, .inr rfl⟩, sameRoot member climbs⟩
    · intro found
      rcases found with ⟨⟨link, member, ends⟩, climbs⟩
      rcases mem_map.mp member with ⟨edge, inEdges, rfl⟩
      rcases exists_climbs represents.shrinking (inside edge inEdges).1 with ⟨top, fromLeft⟩
      rcases ends with rfl | rfl
      · exact ⟨edge, inEdges, climbs, .inl rfl⟩
      · cases climbs.unique (sameRoot inEdges fromLeft)
        exact ⟨edge, inEdges, fromLeft, .inr rfl⟩
  have ofValue : ∀ {set}, set ∈ sets.values → ∃ root, sets.get? root = some set :=
    mem_values.mp
  refine ⟨fun set member => ?_, ?_, ?_, ?_⟩
  · rcases ofValue member with ⟨root, found⟩
    exact collected.distinct root set found
  · unfold values
    rw [pairwise_map]
    have keysApart : sets.entries.Pairwise fun first second => first.1 ≠ second.1 :=
      pairwise_map.mp sets.nodup
    refine keysApart.imp_of_mem ?_
    intro first second inFirst inSecond keys index inA inB
    have foundFirst := get?_eq_some.mpr inFirst
    have foundSecond := get?_eq_some.mpr inSecond
    have climbsFirst := ((members first.1 index).mp (by rw [foundFirst]; exact inA)).2
    have climbsSecond := ((members second.1 index).mp (by rw [foundSecond]; exact inB)).2
    exact keys (climbsFirst.unique climbsSecond)
  · intro set member first inFirst second
    rcases ofValue member with ⟨root, found⟩
    have inSet : ∀ index, index ∈ set ↔
        Touched (edges.map linkOf) index ∧ Climbs parent index root := by
      intro index
      rw [← members, found]
      rfl
    rcases (inSet first).mp inFirst with ⟨touched, climbs⟩
    rw [inSet, path_iff]
    constructor
    · intro both
      exact ⟨touched, (represents.same _ _).mp (.inr ⟨root, climbs, both.2⟩)⟩
    · intro both
      have path := path_iff.mpr both
      refine ⟨path.symm.touched, ?_⟩
      rcases (represents.same _ _).mpr both.2 with rfl | ⟨other, fromFirst, fromSecond⟩
      · exact climbs
      · exact climbs.unique fromFirst ▸ fromSecond
  · intro index touched
    have inRange : index < parent.length := by
      rcases touched with ⟨link, member, ends⟩
      rcases mem_map.mp member with ⟨edge, inEdges, rfl⟩
      rcases ends with rfl | rfl
      · exact (inside edge inEdges).1
      · exact (inside edge inEdges).2
    rcases exists_climbs represents.shrinking inRange with ⟨root, climbs⟩
    have inSet := (members root index).mpr ⟨touched, climbs⟩
    cases found : sets.get? root with
    | none =>
      rw [found] at inSet
      cases inSet
    | some set =>
      rw [found] at inSet
      exact ⟨set, mem_values.mpr ⟨root, found⟩, inSet⟩

theorem components_eq (inside : Inside recordCount edges) (enough : recordCount ≤ rounds) :
    ∃ sets, components rounds recordCount edges = some sets ∧ Components edges sets := by
  rcases unions_eq (represents_range recordCount) length_range inside enough with
    ⟨parent, joined, length, represents⟩
  rw [append_nil] at represents
  have ordered : Represents (edges.map linkOf) parent :=
    represents.congr fun _ _ => ⟨Connected.mono (reverse_subset.mpr (Subset.refl _)),
      Connected.mono (subset_reverse.mpr (Subset.refl _))⟩
  have empty : Collected parent [] empty := by
    refine ⟨fun root set found => (by cases found), fun root index => ⟨fun member => ?_, ?_⟩⟩
    · cases member
    · intro found
      rcases found with ⟨edge, member, facts⟩
      cases member
  rcases collected_eq ordered.shrinking empty (length ▸ inside) (length ▸ enough) with
    ⟨others, sets, ran, collected⟩
  refine ⟨sets.values, ?_, components_of_collected ordered (length ▸ inside) collected⟩
  rw [components, joined, bind_eq_bind, bind_some, ran]
  rfl

end AgentContextLint.DuplicationIndex
