import AgentContextLint.Core.InstructionIrTree

/-!
# Accepted instruction IR is sound

A value that `validateInstructionIr` accepts can be read as a bundle that is `Sound`
(`validateInstructionIr_sound`). The tables of the validator hold the records of the bundle
(`Collected`), so what was checked of tables is known of the bundle.
-/

namespace AgentContextLint.IrValidation

open Utf16 Checked InstructionIr List
open SourceCoordinates (TrueRange)
open JsValue (get)

/-! ## Tables -/

section Tables

variable {α γ : Type} {read : JsValue → Option γ} {facts : γ → α} {id : α → Text}

theorem collectId_clean {path : Text} {index : Nat} {output : List Text} {value : JsValue}
    (clean : (collectId path index output value).Clean) :
    (collectId path index output value).value = (recordId value).toList ++ output ∧
      ∀ id ∈ recordId value, id ∉ output := by
  cases value with
  | object item =>
    unfold collectId recordId at *
    dsimp only at clean ⊢
    cases read : (get item (js "id")).text?.filter isStableIdentifier with
    | none => exact ⟨rfl, fun id member => absurd member (Option.not_mem_none id)⟩
    | some id =>
      simp only [read, clean_bind, clean_pushIf] at clean
      exact ⟨rfl, fun other eq => Option.some.inj eq ▸ clean.1⟩
  | _ => exact ⟨rfl, fun id member => absurd member (Option.not_mem_none id)⟩

theorem collectIds_clean {values : List JsValue} {path : Text}
    (clean : (collectIds values path).Clean) : (values.filterMap recordId).Nodup := by
  have collected := foldIdx_clean (fun done output => output = (done.filterMap recordId).reverse ∧
      output.Nodup) ⟨rfl, nodup_nil⟩ (fun done value rest output _ held clean => ?_)
    ((clean_bind _ _).mp clean).1
  · exact nodup_reverse.mp (collected.1 ▸ collected.2)
  · obtain ⟨isNext, fresh⟩ := collectId_clean clean
    rw [isNext, filterMap_append, reverse_append, ← held.1]
    cases isId : recordId value with
    | none =>
      rw [filterMap_cons_none isId]
      exact ⟨rfl, held.2⟩
    | some id =>
      rw [filterMap_cons_some isId]
      exact ⟨rfl, nodup_cons.mpr ⟨fresh id isId, held.2⟩⟩

variable (read facts id) in
/-- The records that were read from some values, and the table of their facts. -/
structure Collected (values : List JsValue) (records : List γ) (map : OrderedMap Text α) : Prop where
  read : values.mapM read = some records
  ids : values.filterMap recordId = records.map fun record => id (facts record)
  entries : map.entries = records.map fun record => (id (facts record), facts record)

variable {map : OrderedMap Text α} {records : List γ}

theorem Collected.nil : Collected read facts id [] [] .empty := ⟨rfl, rfl, rfl⟩

theorem Collected.keys {values : List JsValue}
    (collected : Collected read facts id values records map) :
    map.keys = records.map fun record => id (facts record) := by
  rw [OrderedMap.keys, collected.entries, map_map]
  rfl

theorem Collected.values {values : List JsValue}
    (collected : Collected read facts id values records map) : map.values = records.map facts := by
  rw [OrderedMap.values, collected.entries, map_map]
  rfl

theorem Collected.nodup {values : List JsValue}
    (collected : Collected read facts id values records map) :
    (records.map fun record => id (facts record)).Nodup := collected.keys ▸ map.nodup

theorem Collected.get?_eq_some {values : List JsValue} (collected : Collected read facts id values records map)
    {key : Text} {a : α} :
    map.get? key = some a ↔ ∃ record ∈ records, facts record = a ∧ id a = key := by
  rw [OrderedMap.get?_eq_some, collected.entries, mem_map]
  constructor
  · rintro ⟨record, member, eq⟩
    cases eq
    exact ⟨record, member, rfl, rfl⟩
  · rintro ⟨record, member, rfl, rfl⟩
    exact ⟨record, member, rfl⟩

/-- One more value, with an id that none of the others has. -/
theorem Collected.snoc {values rest done : List JsValue} (collected : Collected read facts id done records map)
    (nodup : (values.filterMap recordId).Nodup) {value : JsValue} (split : values = done ++ value :: rest)
    {record : γ} (reads : read value = some record) (isId : recordId value = some (id (facts record))) :
    map.get? (id (facts record)) = none ∧
      Collected read facts id (done ++ [value]) (records ++ [record])
        (map.set (id (facts record)) (facts record)) := by
  have fresh : id (facts record) ∉ map.keys := by
    rw [split, filterMap_append, filterMap_cons_some isId] at nodup
    rw [collected.keys, ← collected.ids]
    exact fun member => (nodup_append.mp nodup).2.2 _ member _ mem_cons_self rfl
  refine ⟨?_, ?_, ?_, ?_⟩
  · rw [← Option.not_isSome_iff_eq_none, OrderedMap.isSome_get?]
    exact fresh
  · rw [mapM_append, collected.read, mapM_cons, reads]
    rfl
  · rw [filterMap_append, collected.ids, filterMap_cons_some isId, map_append]
    rfl
  · rw [OrderedMap.entries_set_of_notMem fresh, collected.entries, map_append]
    rfl

theorem collectFacts_clean {validate : JsValue → Text → Validated (Option α)} {holds : γ → Prop}
    {collection : String} {values : List JsValue} (nodup : (values.filterMap recordId).Nodup)
    (accepts : ∀ value path, (validate value path).Clean → ∃ record, read value = some record ∧
      (validate value path).value = some (facts record) ∧
      recordId value = some (id (facts record)) ∧ holds record)
    (clean : (collectFacts collection id validate values).Clean) :
    ∃ records, Collected read facts id values records (collectFacts collection id validate values).value ∧
      ∀ record ∈ records, holds record := by
  refine foldIdx_clean (fun done map => ∃ records, Collected read facts id done records map ∧
    ∀ record ∈ records, holds record) ⟨[], .nil, nofun⟩ ?_ clean
  rintro done value rest map split ⟨records, collected, held⟩ clean
  obtain ⟨record, reads, isFacts, isId, holdsHere⟩ := accepts _ _ ((clean_bind _ _).mp clean).1
  obtain ⟨absent, next⟩ := collected.snoc nodup split reads isId
  refine ⟨records ++ [record], ?_, ?_⟩
  · rw [value_bind, isFacts, value_pure, addFacts, absent]
    exact next
  · rw [forall_mem_append, forall_mem_singleton]
    exact ⟨held, holdsHere⟩

end Tables

variable {listed : DocumentFacts → List Text} {documents : Documents}

theorem collectSources_clean {values : List JsValue} (nodup : (values.filterMap recordId).Nodup)
    (clean : (foldIdx collectSource 0 ⟨.empty, .empty⟩ values).Clean) :
    ∃ sources, Collected readSource sourceFacts (·.id) values sources
        (foldIdx collectSource 0 ⟨.empty, .empty⟩ values).value.sources ∧
      ∀ source ∈ sources, (sourceFacts source).Sound := by
  refine foldIdx_clean (fun done table => ∃ sources,
    Collected readSource sourceFacts (·.id) done sources table.sources ∧
      ∀ source ∈ sources, (sourceFacts source).Sound) ⟨[], .nil, nofun⟩ ?_ clean
  rintro done value rest table split ⟨sources, collected, held⟩ clean
  unfold collectSource at clean ⊢
  rw [clean_bind] at clean
  obtain ⟨sourceClean, clean⟩ := clean
  obtain ⟨source, reads, isFacts, isId⟩ := validateSource_clean sourceClean
  obtain ⟨absent, next⟩ := collected.snoc nodup split reads isId
  have sound := validateSource_sound sourceClean isFacts
  refine ⟨sources ++ [source], ?_, ?_⟩
  · simp only [value_bind, isFacts, absent, Option.isSome_none, Bool.false_eq_true, if_false] at clean ⊢
    split
    · exact next
    · exact next
  · rw [forall_mem_append, forall_mem_singleton]
    exact ⟨held, sound⟩

/-! ## Ownership -/

theorem checkListed_clean {document : DocumentFacts} {ids : List Text} {records : Owned}
    {path : Text} (clean : (checkListed document ids records path).Clean) :
    ∀ id ∈ ids, ∃ facts, records.get? id = some facts ∧ facts.documentId = document.id := by
  intro id member
  obtain ⟨i, found⟩ := getElem?_of_mem member
  have checked := clean_mapIdx.mp ((clean_bind _ _).mp clean).1 i id found
  simp only [clean_bind, clean_addIssueIf] at checked
  cases record : records.get? id with
  | none => simp [record] at checked
  | some facts =>
    rw [record, Option.any_some, decide_eq_true_eq, not_not] at checked
    exact ⟨facts, rfl, checked.2⟩

theorem checkOwned_clean {collection : String} {records : Owned}
    (clean : (mapIdx (checkOwned documents collection listed) 0 records.values).Clean) :
    ∀ facts ∈ records.values, ∀ document, documents.get? facts.documentId = some document →
      facts.id ∈ listed document := by
  intro facts member document found
  obtain ⟨i, isAt⟩ := getElem?_of_mem member
  have checked := clean_addIssueIf.mp (clean_mapIdx.mp clean i facts isAt)
  rwa [found, Option.any_some, Bool.not_eq_true, Bool.not_eq_false', contains_iff_mem] at checked

/-- Documents list records of their own only, and all of them. -/
structure Owns (documents : Documents) (listed : DocumentFacts → List Text) (records : Owned) :
    Prop where
  own : ∀ document ∈ documents.values, ∀ id ∈ listed document,
    ∃ facts, records.get? id = some facts ∧ facts.documentId = document.id
  all : ∀ facts ∈ records.values, ∀ document, documents.get? facts.documentId = some document →
    facts.id ∈ listed document

theorem validateOwnership_clean {imports statements activations : Owned}
    (clean : (validateOwnership documents imports statements activations).Clean) :
    Owns documents (·.importIds) imports ∧ Owns documents (·.statementIds) statements ∧
      Owns documents (·.activationRuleIds) activations := by
  unfold validateOwnership at clean
  simp only [clean_bind] at clean
  obtain ⟨own, imported, stated, activated, -⟩ := clean
  have each : ∀ document ∈ documents.values, ∃ index,
      (checkDocument imports statements activations index document).Clean := fun document member => by
    obtain ⟨i, found⟩ := getElem?_of_mem member
    exact ⟨_, clean_mapIdx.mp own i document found⟩
  simp only [checkDocument, clean_bind] at each
  refine ⟨⟨fun document member => ?_, checkOwned_clean imported⟩,
    ⟨fun document member => ?_, checkOwned_clean stated⟩,
    ⟨fun document member => ?_, checkOwned_clean activated⟩⟩
  · obtain ⟨index, listed, -⟩ := each document member
    exact checkListed_clean listed
  · obtain ⟨index, -, listed, -⟩ := each document member
    exact checkListed_clean listed
  · obtain ⟨index, -, -, listed⟩ := each document member
    exact checkListed_clean listed

/-- Records that are owned are partitioned among the documents. -/
theorem Owns.partitioned {γ : Type} {readRecord : JsValue → Option γ} {facts : γ → OwnedFacts}
    {documentValues recordValues : List JsValue} {documentList : List DocumentFacts}
    {records : List γ} {owned : Owned} (owns : Owns documents listed owned)
    (allDocuments : Collected readDocument (fun document => document) (·.id) documentValues
      documentList documents)
    (allRecords : Collected readRecord facts (·.id) recordValues records owned)
    (listedOnce : ∀ document ∈ documentList, (listed document).Nodup)
    (known : ∀ record ∈ records, (documents.get? (facts record).documentId).isSome = true) :
    Partitioned documentList listed records (fun record => (facts record).id)
      (fun record => (facts record).documentId) := by
  refine ⟨allRecords.nodup, listedOnce, fun record member => ?_, fun document isDocument recordId =>
    ⟨fun inList => ?_, ?_⟩⟩
  · obtain ⟨document, found⟩ := Option.isSome_iff_exists.mp (known record member)
    obtain ⟨_, isDocument, rfl, sameId⟩ := allDocuments.get?_eq_some.mp found
    refine ⟨_, ⟨isDocument, sameId⟩, fun other ⟨isOther, otherId⟩ => ?_⟩
    have again := allDocuments.get?_eq_some.mpr ⟨other, isOther, rfl, otherId⟩
    exact Option.some.inj (again.symm.trans found)
  · have isValue : document ∈ documents.values := by rwa [allDocuments.values, map_id']
    obtain ⟨a, found, sameDocument⟩ := owns.own document isValue recordId inList
    obtain ⟨record, member, rfl, sameId⟩ := allRecords.get?_eq_some.mp found
    exact ⟨record, member, sameId, sameDocument⟩
  · rintro ⟨record, member, rfl, sameDocument⟩
    refine owns.all _ (allRecords.values ▸ mem_map_of_mem member) document ?_
    exact allDocuments.get?_eq_some.mpr ⟨document, isDocument, rfl, sameDocument.symm⟩

/-! ## The forest -/

section Forest

variable {ir : InstructionIr} {sources : Sources} {nodes : Nodes}
  {sourceValues nodeValues : List JsValue}
  (allSources : Collected readSource sourceFacts (·.id) sourceValues ir.sources sources)
  (allNodes : Collected readNode (fun node => node) (·.id) nodeValues ir.nodes nodes)
  (related : Related sources nodes) {node : NodeFacts} {source : IrSource}

include allSources in
theorem source_unique {a b : IrSource} (isSource : a ∈ ir.sources) (isOther : b ∈ ir.sources)
    (same : a.id = b.id) : a = b :=
  inj_on_of_nodup_map allSources.nodup isSource isOther same

include allNodes

theorem get?_eq_some_node {id : Text} :
    nodes.get? id = some node ↔ node ∈ ir.nodes ∧ node.id = id := by
  rw [allNodes.get?_eq_some]
  constructor
  · rintro ⟨_, member, rfl, same⟩
    exact ⟨member, same⟩
  · rintro ⟨member, same⟩
    exact ⟨node, member, rfl, same⟩

theorem mem_values_node : node ∈ nodes.values ↔ node ∈ ir.nodes := by
  rw [allNodes.values, map_id']

theorem node_unique {a b : NodeFacts} (isNode : a ∈ ir.nodes) (isOther : b ∈ ir.nodes)
    (same : a.id = b.id) : a = b :=
  Option.some.inj (((get?_eq_some_node allNodes).mpr ⟨isNode, same⟩).symm.trans
    ((get?_eq_some_node allNodes).mpr ⟨isOther, rfl⟩))

include related

theorem follows_iff_child {a b : Text} : Follows nodes a b ↔ ir.Child a b := by
  constructor
  · rintro ⟨inChildren, -⟩
    unfold childrenOf at inChildren
    cases found : nodes.get? a with
    | none =>
      rw [found] at inChildren
      cases inChildren
    | some node =>
      rw [found] at inChildren
      obtain ⟨member, same⟩ := (get?_eq_some_node allNodes).mp found
      exact ⟨node, member, same, inChildren⟩
  · rintro ⟨node, member, rfl, isChild⟩
    have found := (get?_eq_some_node allNodes).mpr ⟨member, rfl⟩
    obtain ⟨child, linked⟩ :=
      (related.family node ((mem_values_node allNodes).mpr member)).linked b isChild
    refine ⟨?_, ?_⟩
    · rw [childrenOf, found]
      exact isChild
    · rw [isNode, linked.found]
      rfl

theorem follows_eq_child : Follows nodes = ir.Child :=
  funext fun _ => funext fun _ => propext (follows_iff_child allNodes related)

theorem child_of_mem (member : node ∈ ir.nodes) {childId : Text} (isChild : childId ∈ node.childIds) :
    ∃ child ∈ ir.nodes, child.id = childId ∧ child.sourceId = node.sourceId ∧
      rangeContains node.range child.range = true := by
  obtain ⟨child, linked⟩ :=
    (related.family node ((mem_values_node allNodes).mpr member)).linked childId isChild
  obtain ⟨isNode, same⟩ := (get?_eq_some_node allNodes).mp linked.found
  exact ⟨child, isNode, same, linked.sameSource, linked.inside⟩

/-- Nodes that are reached are nodes of the source of the root. -/
theorem sameSource_of_below {root node : NodeFacts} (isRoot : root ∈ ir.nodes) (isNode : node ∈ ir.nodes)
    (path : Relation.ReflTransGen ir.Child root.id node.id) : node.sourceId = root.sourceId := by
  generalize target : node.id = b at path
  induction path generalizing node with
  | refl => rw [node_unique allNodes isNode isRoot target]
  | tail _ edge ih =>
    obtain ⟨parent, isParent, rfl, isChild⟩ := edge
    obtain ⟨child, isNode', same, ofSource, -⟩ := child_of_mem allNodes related isParent isChild
    rw [node_unique allNodes isNode isNode' (target.trans same.symm), ofSource]
    exact ih isParent rfl

include allSources

theorem root_of_source (member : source ∈ ir.sources) :
    ∃ root ∈ ir.nodes, root.id = source.rootNodeId ∧ root.sourceId = source.id := by
  obtain ⟨-, root, found, ofSource⟩ := related.root (sourceFacts source)
    (allSources.values ▸ mem_map_of_mem member)
  obtain ⟨isNode, same⟩ := (get?_eq_some_node allNodes).mp found
  exact ⟨root, isNode, same, ofSource⟩

theorem sourceId_of_below (member : source ∈ ir.sources)
    (isNode : node ∈ ir.nodes) (below : ir.Below source node) : node.sourceId = source.id := by
  obtain ⟨root, isRoot, same, ofSource⟩ := root_of_source allSources allNodes related member
  rw [← ofSource]
  exact sameSource_of_below allNodes related isRoot isNode (same ▸ below)

theorem below_some_root (isNode : node ∈ ir.nodes) :
    ∃ source ∈ ir.sources, ir.Below source node := by
  obtain ⟨facts, member, path⟩ := related.below node ((mem_values_node allNodes).mpr isNode)
  rw [allSources.values] at member
  obtain ⟨source, isSource, rfl⟩ := mem_map.mp member
  rw [follows_eq_child allNodes related] at path
  exact ⟨source, isSource, path⟩

theorem forest_of_related : ir.Forest := by
  have acyclic : ∀ id, ¬ Relation.TransGen ir.Child id id := fun id cycle =>
    related.acyclic id (follows_eq_child allNodes related ▸ cycle)
  refine ⟨allSources.nodup, allNodes.nodup, fun source => root_of_source allSources allNodes related,
    fun node member childId isChild => ?_, acyclic, fun node isNode => ?_,
    fun source isSource node isNode isChild => ?_, fun node isNode noRoot => ?_⟩
  · obtain ⟨child, isNode, same, ofSource, -⟩ := child_of_mem allNodes related member isChild
    exact ⟨child, isNode, same, ofSource⟩
  · obtain ⟨source, isSource, below⟩ := below_some_root allSources allNodes related isNode
    have ofSource := sourceId_of_below allSources allNodes related isSource isNode below
    refine ⟨source, isSource, ofSource.symm, fun other isOther => ⟨fun alsoBelow => ?_, ?_⟩⟩
    · have ofOther := sourceId_of_below allSources allNodes related isOther isNode alsoBelow
      exact source_unique allSources isOther isSource (ofOther.symm.trans ofSource)
    · rintro rfl
      exact below
  · obtain ⟨other, isOther, below⟩ := below_some_root allSources allNodes related isNode
    obtain ⟨root, isRoot, rootId, ofRoot⟩ := root_of_source allSources allNodes related isSource
    obtain ⟨child, isNode', same, ofNode, -⟩ := child_of_mem allNodes related isNode isChild
    have ofOther := sourceId_of_below allSources allNodes related isOther isNode below
    -- the root is a child of a node below the root of the same source
    have isIt := node_unique allNodes isNode' isRoot (same.trans rootId.symm)
    have sameSource : other = source := by
      refine source_unique allSources isOther isSource ?_
      rw [← ofOther, ← ofNode, isIt, ofRoot]
    subst sameSource
    exact acyclic _ (.tail' below ⟨node, isNode, rfl, isChild⟩)
  · obtain ⟨source, isSource, below⟩ := below_some_root allSources allNodes related isNode
    rcases Relation.ReflTransGen.cases_tail below with atRoot | ⟨_, -, parent, isParent, -, isChild⟩
    · exact absurd atRoot.symm (noRoot source isSource)
    · refine ⟨parent, ⟨isParent, isChild⟩, fun other ⟨isOther, alsoChild⟩ => ?_⟩
      exact node_unique allNodes isOther isParent
        (related.unique other ((mem_values_node allNodes).mpr isOther) parent
          ((mem_values_node allNodes).mpr isParent) node.id alsoChild isChild)

omit allSources in
theorem nested_of_related : ir.Nested := by
  refine ⟨fun node isNode child isChildNode isChild => ?_, fun node isNode => ?_⟩
  · obtain ⟨other, isNode', same, -, inside⟩ := child_of_mem allNodes related isNode isChild
    rwa [node_unique allNodes isChildNode isNode' same.symm]
  · have family := related.family node ((mem_values_node allNodes).mpr isNode)
    have accepted := (related.known node.id node
      ((get?_eq_some_node allNodes).mpr ⟨isNode, rfl⟩)).2
    refine (accepted.childIds.and family.ordered).imp fun both => ⟨both.1, ?_⟩
    intro a isA b isB same same'
    exact both.2 a b ((get?_eq_some_node allNodes).mpr ⟨isA, same⟩)
      ((get?_eq_some_node allNodes).mpr ⟨isB, same'⟩)

end Forest

/-! ## Ranges and texts -/

section Ranges

variable {ir : InstructionIr} {sources : Sources} {sourceValues : List JsValue}
  (allSources : Collected readSource sourceFacts (·.id) sourceValues ir.sources sources)
  {range : SourceRange}
include allSources

theorem trueRange_of_known (known : RangeKnown sources range) :
    ∃ source ∈ ir.sources, TrueRange source.id source.text range := by
  obtain ⟨facts, found, isTrue⟩ := known
  obtain ⟨source, member, rfl, -⟩ := allSources.get?_eq_some.mp found
  exact ⟨source, member, isTrue⟩

theorem quotes_of_slice {text : Text}
    (sliced : sourceSlice sources range = some text) : ir.Quotes range text := by
  obtain ⟨facts, found, rfl⟩ := Option.map_eq_some_iff.mp sliced
  obtain ⟨source, member, rfl, same⟩ := allSources.get?_eq_some.mp found
  exact ⟨source, member, same, rfl⟩

end Ranges

variable {record : Fields}

theorem rangeKnown_of_mem {ir : InstructionIr} {sources : Sources}
    (nodes : ∀ node ∈ ir.nodes, RangeKnown sources node.range)
    (imports : ∀ record ∈ ir.imports, RangeKnown sources record.range)
    (specifiers : ∀ record ∈ ir.imports, RangeKnown sources record.specifierRange)
    (statements : ∀ statement ∈ ir.statements, RangeKnown sources statement.range)
    (rules : ∀ rule ∈ ir.activationRules, ∀ range ∈ rule.ranges, RangeKnown sources range)
    {range : SourceRange} (member : range ∈ ir.ranges) : RangeKnown sources range := by
  simp only [InstructionIr.ranges, mem_append, mem_map, mem_flatMap] at member
  rcases member with (((⟨node, isNode, rfl⟩ | ⟨record, isImport, rfl⟩) | ⟨record, isImport, rfl⟩) |
    ⟨statement, isStatement, rfl⟩) | ⟨rule, isRule, inRule⟩
  · exact nodes node isNode
  · exact imports record isImport
  · exact specifiers record isImport
  · exact statements statement isStatement
  · exact rules rule isRule range inRule

/-! ## Bundles -/

theorem collectRecords_clean {key : String} (clean : (collectRecords record key).Clean) :
    get record (js key) = .array (collectRecords record key).value := by
  unfold collectRecords at clean ⊢
  rw [clean_bind, clean_requiredArray] at clean
  rw [value_bind, value_pure, value_requiredArray]
  cases value : get record (js key) with
  | array items => rfl
  | _ =>
    rw [value] at clean
    cases clean.1

/-- The collections of a bundle without issues are the fields of the bundle, and no collection has
an id twice. -/
structure CollectionsOf (record : Fields) (values : Collections) : Prop where
  sources : get record (js "sources") = .array values.sources
  documents : get record (js "documents") = .array values.documents
  nodes : get record (js "nodes") = .array values.nodes
  imports : get record (js "imports") = .array values.imports
  statements : get record (js "statements") = .array values.statements
  activationRules : get record (js "activationRules") = .array values.activationRules
  sourceIds : (values.sources.filterMap recordId).Nodup
  documentIds : (values.documents.filterMap recordId).Nodup
  nodeIds : (values.nodes.filterMap recordId).Nodup
  importIds : (values.imports.filterMap recordId).Nodup
  statementIds : (values.statements.filterMap recordId).Nodup
  activationRuleIds : (values.activationRules.filterMap recordId).Nodup

theorem collect_clean (clean : (collect record).Clean) :
    CollectionsOf record (collect record).value := by
  unfold collect at clean ⊢
  simp only [clean_bind] at clean
  obtain ⟨-, -, -, -, sources, documents, nodes, imports, statements, rules, -, -, sourceIds,
    documentIds, nodeIds, importIds, statementIds, ruleIds, -⟩ := clean
  repeat rw [value_bind]
  exact {
    sources := collectRecords_clean sources
    documents := collectRecords_clean documents
    nodes := collectRecords_clean nodes
    imports := collectRecords_clean imports
    statements := collectRecords_clean statements
    activationRules := collectRecords_clean rules
    sourceIds := collectIds_clean sourceIds
    documentIds := collectIds_clean documentIds
    nodeIds := collectIds_clean nodeIds
    importIds := collectIds_clean importIds
    statementIds := collectIds_clean statementIds
    activationRuleIds := collectIds_clean ruleIds }

theorem validateCollections_sound {values : Collections}
    (ofRecord : CollectionsOf record values) (clean : (validateCollections values).Clean) :
    ∃ ir, ofValue (.object record) = some ir ∧ ir.Sound := by
  unfold validateCollections at clean
  simp only [clean_bind] at clean
  obtain ⟨sourceClean, nodeClean, treeClean, documentClean, importClean, statementClean,
    activationClean, ownership, -⟩ := clean
  obtain ⟨sourceList, allSources, soundSources⟩ := collectSources_clean ofRecord.sourceIds sourceClean
  have known : KnownSources (foldIdx collectSource 0 ⟨.empty, .empty⟩ values.sources).value.sources :=
    fun id facts found => by
      obtain ⟨source, member, rfl, same⟩ := allSources.get?_eq_some.mp found
      exact ⟨same, soundSources source member⟩
  obtain ⟨nodeList, allNodes, acceptedNodes⟩ := collectFacts_clean ofRecord.nodeIds
    (fun value path clean => validateNode_clean known clean) nodeClean
  obtain ⟨documentList, allDocuments, acceptedDocuments⟩ := collectFacts_clean ofRecord.documentIds
    (fun value path clean => validateDocument_clean clean) documentClean
  obtain ⟨importList, allImports, acceptedImports⟩ := collectFacts_clean ofRecord.importIds
    (fun value path clean => validateImport_clean known clean) importClean
  obtain ⟨statementList, allStatements, acceptedStatements⟩ :=
    collectFacts_clean ofRecord.statementIds
      (fun value path clean => validateStatement_clean known clean) statementClean
  obtain ⟨ruleList, allRules, acceptedRules⟩ := collectFacts_clean ofRecord.activationRuleIds
    (fun value path clean => validateActivation_clean known clean) activationClean
  obtain ⟨ownImports, ownStatements, ownRules⟩ := validateOwnership_clean ownership
  have related := validateAstRelationships_clean (fun id node found => by
    obtain ⟨node, member, rfl, same⟩ := allNodes.get?_eq_some.mp found
    exact ⟨same, acceptedNodes node member⟩) treeClean
  let ir : InstructionIr := {
    sources := sourceList, nodes := nodeList, documents := documentList, imports := importList
    statements := statementList, activationRules := ruleList }
  have forest : ir.Forest := forest_of_related allSources allNodes related
  have nested : ir.Nested := nested_of_related allNodes related
  have quotes : ∀ range text, sourceSlice _ range = some text → ir.Quotes range text :=
    fun range text => quotes_of_slice allSources
  have trueRanges : ∀ range ∈ ir.ranges, ∃ source ∈ ir.sources,
      TrueRange source.id source.text range := fun range member =>
    trueRange_of_known allSources (rangeKnown_of_mem (fun node member => (acceptedNodes node member).range)
      (fun record member => (acceptedImports record member).range)
      (fun record member => (acceptedImports record member).specifierRange)
      (fun statement member => (acceptedStatements statement member).range)
      (fun rule member => (acceptedRules rule member).ranges) member)
  refine ⟨ir, ?_, {
    forest, nested, trueRanges
    specifiers := fun record member => quotes _ _ (acceptedImports record member).specifier
    statementTexts := fun statement member => quotes _ _ (acceptedStatements statement member).text
    documentIds := allDocuments.nodup
    imports := ownImports.partitioned allDocuments allImports
      (fun document member => (acceptedDocuments document member).importIds)
      fun record member => (acceptedImports record member).document
    statements := ownStatements.partitioned allDocuments allStatements
      (fun document member => (acceptedDocuments document member).statementIds)
      fun statement member => (acceptedStatements statement member).document
    activationRules := ownRules.partitioned allDocuments allRules
      (fun document member => (acceptedDocuments document member).activationRuleIds)
      fun rule member => (acceptedRules rule member).document }⟩
  simp only [ofValue, readFields, readList, ofRecord.sources, ofRecord.nodes,
    ofRecord.documents, ofRecord.imports, ofRecord.statements, ofRecord.activationRules,
    allSources.read, allNodes.read, allDocuments.read, allImports.read, allStatements.read,
    allRules.read]
  rfl

/-- An accepted value is a bundle with a tree of nodes for each source, true ranges, exact quotes and
records partitioned among documents. -/
theorem validateInstructionIr_sound {input value : JsValue}
    (accepted : validateInstructionIr input = .ok value) :
    ∃ ir, ofValue input = some ir ∧ ir.Sound := by
  unfold validateInstructionIr at accepted
  dsimp only at accepted
  split_ifs at accepted with noIssue
  have clean : (validateInstructionIrValue input).Clean := noIssue
  unfold validateInstructionIrValue at clean
  split at clean
  · rw [clean_bind, clean_objectValue, value_objectValue] at clean
    obtain ⟨⟨record, rfl, -⟩, clean⟩ := clean
    obtain ⟨collected, checked⟩ := (clean_bind _ _).mp clean
    exact validateCollections_sound (collect_clean collected) checked
  · rename_i issues
    exact absurd clean issues

/-! ## A bundle -/

def twoLines : Text := [0x61, 0x0a, 0x62]

def twoLinesPosition (utf16Offset : Nat) : JsValue :=
  .object (positionFields (SourceCoordinates.truePosition twoLines utf16Offset))

def twoLinesRange (start stop : Nat) : JsValue :=
  .object [(js "sourceId", .string (js "s")), (js "start", twoLinesPosition start),
    (js "end", twoLinesPosition stop)]

def twoLinesNode (id kind : String) (start stop : Nat) (childIds : List String) : JsValue :=
  .object [(js "id", .string (js id)), (js "sourceId", .string (js "s")),
    (js "kind", .string (js kind)), (js "range", twoLinesRange start stop),
    (js "childIds", .array (childIds.map fun childId => .string (js childId)))]

def knownUncertainty : JsValue := .object [(js "state", .string (js "known"))]

/-- A paragraph for each line: a statement and an import. -/
def twoLinesBundle : JsValue := .object
  [(js "recordKind", .string (js "agent-context-instruction-ir")),
    (js "contractVersion", .string (js "0.1.0")),
    (js "sources", .array [.object
      [(js "id", .string (js "s")), (js "path", .string (js "AGENTS.md")),
        (js "encoding", .string (js "utf-8")), (js "bom", .string (js "none")),
        (js "text", .string twoLines), (js "byteLength", natValue 3), (js "utf16Length", natValue 3),
        (js "sha256",
          .string (js "7e18f737311b2dc3b2f269dd78396b0351f14fb66efa879f768cb23181883c78")),
        (js "lineEnding", .string (js "lf")),
        (js "parseState", .object [(js "state", .string (js "complete"))]),
        (js "rootNodeId", .string (js "root"))]]),
    (js "documents", .array [.object
      [(js "id", .string (js "d")), (js "sourceId", .string (js "s")),
        (js "formatId", .string (js "agents-md")), (js "scopeRoot", .string (js ".")),
        (js "rootNodeId", .string (js "root")), (js "importIds", .array [.string (js "i")]),
        (js "statementIds", .array [.string (js "t")]), (js "activationRuleIds", .array [])]]),
    (js "nodes", .array [twoLinesNode "root" "root" 0 3 ["p", "q"],
      twoLinesNode "p" "paragraph" 0 1 [], twoLinesNode "q" "paragraph" 2 3 []]),
    (js "imports", .array [.object
      [(js "id", .string (js "i")), (js "documentId", .string (js "d")),
        (js "nodeId", .string (js "q")), (js "kind", .string (js "vendor-import")),
        (js "range", twoLinesRange 2 3), (js "specifierRange", twoLinesRange 2 3),
        (js "rawSpecifier", .string [0x62]),
        (js "targetKind", .string (js "repository-path-candidate")),
        (js "state", .string (js "recognized")), (js "uncertainty", knownUncertainty)]]),
    (js "statements", .array [.object
      [(js "id", .string (js "t")), (js "documentId", .string (js "d")),
        (js "nodeIds", .array [.string (js "p")]), (js "range", twoLinesRange 0 1),
        (js "text", .string [0x61]),
        (js "classification", .object [(js "state", .string (js "unclassified"))])]]),
    (js "activationRules", .array []), (js "targets", .array []), (js "events", .array [])]

/-- The bundle is accepted, hence sound. -/
theorem validateInstructionIr_sound_twoLines :
    validateInstructionIr twoLinesBundle = .ok twoLinesBundle ∧
      ∃ ir, ofValue twoLinesBundle = some ir ∧ ir.Sound := by
  have accepted : validateInstructionIr twoLinesBundle = .ok twoLinesBundle :=
    if_pos (by decide +kernel)
  exact ⟨accepted, validateInstructionIr_sound accepted⟩

end AgentContextLint.IrValidation
