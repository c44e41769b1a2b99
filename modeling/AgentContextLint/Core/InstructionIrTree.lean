import AgentContextLint.Core.InstructionIrReading
import AgentContextLint.Core.InstructionIrValidation

/-!
# The nodes of a source are a tree

`validateAstRelationships` checks neighbours, notes parents, and walks from the roots. Without
issues the children of a node lie in it one behind the other (`Family`), no node has two parents
(`ParentsNoted`), and the walks have visited every node behind its children (`Walked`).
-/

namespace AgentContextLint.IrValidation

open Utf16 Checked List
open DepthFirst (run_done run_sound start weight)

/-- The nodes of a bundle that were valid, under their ids. -/
def KnownNodes (sources : Sources) (nodes : Nodes) : Prop :=
  ∀ id node, nodes.get? id = some node → node.id = id ∧ node.Accepted sources

theorem RangeKnown.forward {sources : Sources} {range : SourceRange} (known : RangeKnown sources range) :
    range.start.utf16Offset ≤ range.stop.utf16Offset := by
  obtain ⟨facts, -, start, stop, order, -, -, rfl⟩ := known
  exact order

/-! ## Children and parents -/

/-- A node that is a child of another one may be it. -/
structure Linked (nodes : Nodes) (node : NodeFacts) (childId : Text) (child : NodeFacts) : Prop where
  found : nodes.get? childId = some child
  sameSource : child.sourceId = node.sourceId
  inside : rangeContains node.range child.range = true

/-- The nodes with two ids lie one behind the other. -/
def InOrder (nodes : Nodes) (first second : Text) : Prop :=
  ∀ a b, nodes.get? first = some a → nodes.get? second = some b → InstructionIr.InFront a b

/-- The children of a node are nodes inside of it, one behind the other. -/
structure Family (nodes : Nodes) (node : NodeFacts) (childIds : List Text) : Prop where
  linked : ∀ childId ∈ childIds, ∃ child, Linked nodes node childId child
  ordered : childIds.Pairwise (InOrder nodes)

section Links

variable {sources : Sources} {nodes : Nodes} (known : KnownNodes sources nodes)
  {childId : Text} {node : NodeFacts} {siblings : Siblings} {parents : Parents} {index : Nat}

theorem linkChild_clean (clean : (linkChild nodes node index siblings childId).Clean) :
    ∃ child, Linked nodes node childId child ∧
      (∀ previous ∈ siblings.previous, InstructionIr.InFront previous child) ∧
      (∀ parent, siblings.parentByChild.get? childId = some parent → parent = node.id) ∧
      (linkChild nodes node index siblings childId).value =
        ⟨some child, siblings.parentByChild.set childId node.id⟩ := by
  unfold linkChild at clean ⊢
  cases found : nodes.get? childId with
  | none =>
    simp only [found] at clean
    exact absurd ((clean_bind _ _).mp clean).1 clean_addIssue
  | some child =>
    simp only [found, clean_bind, clean_addIssueIf, not_not, Bool.not_eq_false] at clean
    obtain ⟨sameSource, inside, apart, prior⟩ := clean
    dsimp only
    have inFront : ∀ previous ∈ siblings.previous, InstructionIr.InFront previous child :=
      fun previous isPrevious => by
        rw [Option.mem_def.mp isPrevious, Option.any_some, decide_eq_true_eq, not_lt] at apart
        exact apart
    cases other : (siblings.parentByChild.get? childId).filter (· ≠ node.id) with
    | some priorParent =>
      rw [other] at prior
      exact absurd ((clean_bind _ _).mp prior).1 (not_clean_push _)
    | none =>
      refine ⟨child, ⟨found, sameSource, inside⟩, inFront, fun parent isParent => ?_, rfl⟩
      rw [isParent, Option.filter_eq_none_iff] at other
      have same := other parent rfl
      rwa [decide_eq_true_eq, not_not] at same

/-- What the loop over the children of a node has done. -/
structure ChildrenLinked (nodes : Nodes) (node : NodeFacts) (before : Parents)
    (done : List Text) (siblings : Siblings) : Prop where
  family : Family nodes node done
  /-- No child ends behind the one before the next. -/
  previous : ∀ childId ∈ done, ∀ child, nodes.get? childId = some child →
    ∃ previous, siblings.previous = some previous ∧
      child.range.stop.utf16Offset ≤ previous.range.stop.utf16Offset
  fresh : ∀ childId ∈ done, ∀ parent, before.get? childId = some parent → parent = node.id
  parents : ∀ key, siblings.parentByChild.get? key =
    if key ∈ done then some node.id else before.get? key

include known in
theorem ChildrenLinked.snoc {before : Parents} {done : List Text} (linked : ChildrenLinked nodes node before done siblings)
    (clean : (linkChild nodes node done.length siblings childId).Clean) :
    ChildrenLinked nodes node before (done ++ [childId])
      (linkChild nodes node done.length siblings childId).value := by
  obtain ⟨child, isChild, inFront, sameParent, value⟩ := linkChild_clean clean
  have isOnly : ∀ other, nodes.get? childId = some other → other = child := fun other found =>
    Option.some.inj (found.symm.trans isChild.found)
  have forward := (known childId child isChild.found).2.range.forward
  rw [value]
  refine ⟨⟨?_, ?_⟩, ?_, ?_, fun key => ?_⟩
  · rw [forall_mem_append, forall_mem_singleton]
    exact ⟨linked.family.linked, child, isChild⟩
  · refine pairwise_append.mpr ⟨linked.family.ordered, pairwise_singleton _ _, ?_⟩
    intro first member second isNew a b firstFound secondFound
    rw [mem_singleton.mp isNew] at secondFound
    obtain rfl := isOnly b secondFound
    obtain ⟨previous, isPrevious, upTo⟩ := linked.previous first member a firstFound
    exact Nat.le_trans upTo (inFront previous isPrevious)
  · rw [forall_mem_append, forall_mem_singleton]
    refine ⟨fun other member a found => ⟨child, rfl, ?_⟩, fun a found => ⟨child, rfl, ?_⟩⟩
    · obtain ⟨previous, isPrevious, upTo⟩ := linked.previous other member a found
      exact Nat.le_trans (Nat.le_trans upTo (inFront previous isPrevious)) forward
    · rw [isOnly a found]
  · rw [forall_mem_append, forall_mem_singleton]
    refine ⟨linked.fresh, fun parent noted => ?_⟩
    have now := linked.parents childId
    split_ifs at now with again
    · exact linked.fresh childId again parent noted
    · exact sameParent parent (now.trans noted)
  · dsimp only
    rw [OrderedMap.get?_set, linked.parents key]
    by_cases same : childId = key
    · rw [if_pos same, if_pos (mem_append_right _ (mem_singleton.mpr same.symm))]
    · have iff : key ∈ done ++ [childId] ↔ key ∈ done := by
        rw [mem_append, mem_singleton]
        exact or_iff_left (Ne.symm same)
      rw [if_neg same]
      exact if_congr iff.symm rfl rfl

/-- What the loop over the nodes has noted. -/
structure ParentsNoted (nodes : Nodes) (done : List NodeFacts) (parents : Parents) : Prop where
  family : ∀ node ∈ done, Family nodes node node.childIds
  parent : ∀ node ∈ done, ∀ childId ∈ node.childIds, parents.get? childId = some node.id

include known in
theorem ParentsNoted.snoc {done : List NodeFacts} (noted : ParentsNoted nodes done parents)
    (clean : (linkChildren nodes index parents node).Clean) :
    ParentsNoted nodes (done ++ [node]) (linkChildren nodes index parents node).value := by
  unfold linkChildren at clean ⊢
  obtain ⟨linkedClean, -⟩ := (clean_bind _ _).mp clean
  have linked := foldIdx_clean (ChildrenLinked nodes node parents)
    ⟨⟨nofun, Pairwise.nil⟩, nofun, nofun, fun key => by simp⟩
    (fun _ _ _ _ _ linked clean => ChildrenLinked.snoc known linked clean) linkedClean
  constructor
  · rw [forall_mem_append, forall_mem_singleton]
    exact ⟨noted.family, linked.family⟩
  · rw [forall_mem_append, forall_mem_singleton]
    refine ⟨fun other member childId isChild => ?_, fun childId isChild => ?_⟩
    · have before := noted.parent other member childId isChild
      refine (linked.parents childId).trans ?_
      split_ifs with again
      · rw [linked.fresh childId again other.id before]
      · exact before
    · exact (linked.parents childId).trans (if_pos isChild)

theorem ParentsNoted.unique {all : List NodeFacts}
    (noted : ParentsNoted nodes all parents) {a b : NodeFacts} (isNode : a ∈ all) (isOther : b ∈ all) (child : childId ∈ a.childIds) (also : childId ∈ b.childIds) :
    a.id = b.id :=
  Option.some.inj ((noted.parent a isNode childId child).symm.trans
    (noted.parent b isOther childId also))

end Links

variable {nodes : Nodes} {state : Walk} {rootId : Text} {sources : Sources}

/-! ## Walks -/

abbrev Follows (nodes : Nodes) : Text → Text → Prop :=
  DepthFirst.Edge (childrenOf nodes) (isNode nodes)

/-- What the walks from the roots of some sources have visited. -/
structure Walked (nodes : Nodes) (done : List SourceFacts) (state : Walk) : Prop where
  root : ∀ source ∈ done, rootsOf nodes source.id = [source.rootNodeId] ∧
    ∃ root, nodes.get? source.rootNodeId = some root ∧ root.sourceId = source.id
  finished : ∀ front a back, state.visited = front ++ a :: back → ∀ b, Follows nodes a b → b ∈ back
  below : ∀ a ∈ state.visited, ∃ source ∈ done,
    Relation.ReflTransGen (Follows nodes) source.rootNodeId a

theorem walk_finished (finished : ∀ front a back, state.visited = front ++ a :: back →
      ∀ b, Follows nodes a b → b ∈ back) (clean : (walk nodes rootId state).Clean) :
    ∀ front a back, (walk nodes rootId state).value.visited = front ++ a :: back →
      ∀ b, Follows nodes a b → b ∈ back := by
  have noCycle := map_eq_nil_iff.mp clean
  have sound : DepthFirst.Sound (childrenOf nodes) (isNode nodes)
      (start rootId { state with cycles := [] }) :=
    ⟨finished, ⟨fun _ => ⟨rfl, rfl⟩, nofun, trivial⟩⟩
  exact (run_sound sound noCycle).finished

theorem Walked.snoc (known : KnownNodes sources nodes)
    {done : List SourceFacts} (walked : Walked nodes done state) {index : Nat}
    {source : SourceFacts} (clean : (walkSource nodes index state source).Clean) :
    Walked nodes (done ++ [source]) (walkSource nodes index state source).value := by
  unfold walkSource at clean ⊢
  cases found : nodes.get? source.rootNodeId with
  | none =>
    simp only [found, clean_bind] at clean
    exact absurd clean.2.1 clean_addIssue
  | some root =>
    simp only [found, clean_bind, clean_addIssueIf, not_not, not_or] at clean
    obtain ⟨only, ⟨-, ofSource⟩, -, walkClean⟩ := clean
    have rootId := (known _ _ found).1
    simp only [value_bind]
    refine ⟨?_, walk_finished walked.finished walkClean, ?_⟩
    · rw [forall_mem_append, forall_mem_singleton]
      exact ⟨walked.root, only, root, found, ofSource⟩
    · have within : DepthFirst.Within (fun a => ∃ s ∈ done ++ [source],
          Relation.ReflTransGen (Follows nodes) s.rootNodeId a)
          (start root.id { state with cycles := [] }) := by
        constructor
        · refine forall_mem_singleton.mpr
            ⟨source, mem_append_right _ mem_cons_self, ?_⟩
          rw [rootId]
        · intro a visited
          obtain ⟨s, member, path⟩ := walked.below a visited
          exact ⟨s, mem_append_left _ member, path⟩
      exact (DepthFirst.run_within
        (fun a b ⟨s, member, path⟩ edge => ⟨s, member, path.tail edge⟩) within).visited

/-- Each walk ends: its fuel is enough. -/
theorem walk_done (root : isNode nodes rootId = true) (within : ∀ a ∈ state.visited, a ∈ nodes.keys) :
    (walk nodes rootId state).value.stack = [] := by
  have within' : DepthFirst.Within (· ∈ nodes.keys)
      (start rootId { state with cycles := [] }) :=
    ⟨forall_mem_singleton.mpr (OrderedMap.isSome_get?.mp root), within⟩
  refine run_done (fun a isKnown => OrderedMap.isSome_get?.mp isKnown) within' ?_
  have pool : weight (childrenOf nodes) nodes.keys
      (start rootId { state with cycles := [] }) ≤
        1 + ((nodes.keys.filter fun _ => true).map (DepthFirst.nodeWeight (childrenOf nodes))).sum :=
    Nat.add_le_add_left (DepthFirst.sum_filter_le (fun _ _ => rfl) _ _) 1
  rwa [filter_true, Nat.add_comm] at pool

/-! ## All together -/

/-- What is known of the nodes of a bundle whose relationships have no issue. -/
structure Related (sources : Sources) (nodes : Nodes) : Prop where
  known : KnownNodes sources nodes
  family : ∀ node ∈ nodes.values, Family nodes node node.childIds
  unique : ∀ a ∈ nodes.values, ∀ b ∈ nodes.values, ∀ childId, childId ∈ a.childIds →
    childId ∈ b.childIds → a.id = b.id
  root : ∀ source ∈ sources.values, rootsOf nodes source.id = [source.rootNodeId] ∧
    ∃ root, nodes.get? source.rootNodeId = some root ∧ root.sourceId = source.id
  acyclic : ∀ a, ¬ Relation.TransGen (Follows nodes) a a
  below : ∀ node ∈ nodes.values, ∃ source ∈ sources.values,
    Relation.ReflTransGen (Follows nodes) source.rootNodeId node.id

theorem validateAstRelationships_clean (known : KnownNodes sources nodes)
    (clean : (validateAstRelationships nodes sources).Clean) : Related sources nodes := by
  unfold validateAstRelationships at clean
  simp only [clean_bind, clean_mapIdx, clean_addIssueIf, not_not] at clean
  obtain ⟨linkClean, walkClean, sweep, -⟩ := clean
  have first : Walked nodes [] ⟨[], [], [], []⟩ :=
    ⟨forall_mem_nil _, fun front _ _ split => (by cases front <;> cases split), forall_mem_nil _⟩
  have noted := foldIdx_clean (ParentsNoted nodes) ⟨forall_mem_nil _, forall_mem_nil _⟩
    (fun _ _ _ _ _ noted clean => ParentsNoted.snoc known noted clean) linkClean
  have walked := foldIdx_clean (Walked nodes) first
    (fun _ _ _ _ _ walked clean => Walked.snoc known walked clean) walkClean
  have visited : ∀ node ∈ nodes.values,
      node.id ∈ (foldIdx (walkSource nodes) 0 ⟨[], [], [], []⟩ sources.values).value.visited :=
    fun node member => by
      obtain ⟨i, found⟩ := getElem?_of_mem member
      exact sweep i node found
  refine ⟨known, noted.family, fun a isNode b isOther childId => noted.unique isNode isOther,
    walked.root, fun a cycle => ?_, fun node member => walked.below node.id (visited node member)⟩
  obtain ⟨b, edge, -⟩ := Relation.TransGen.head'_iff.mp cycle
  have isNode : (nodes.get? a).isSome = true := by
    by_contra missing
    rw [Bool.not_eq_true, Option.isSome_eq_false_iff, Option.isNone_iff_eq_none] at missing
    have none := edge.1
    rw [childrenOf, missing] at none
    cases none
  obtain ⟨node, found⟩ := Option.isSome_iff_exists.mp isNode
  have here := visited node (OrderedMap.mem_values.mpr ⟨a, found⟩)
  rw [(known a node found).1] at here
  exact (DepthFirst.not_transGen_self walked.finished a here).1 cycle

end AgentContextLint.IrValidation
