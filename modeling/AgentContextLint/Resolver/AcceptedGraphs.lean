import AgentContextLint.Resolver.DocumentImportDag
import AgentContextLint.Evidence.ImportGraphInvariants

/-!
# Graphs that the DAG builder accepts

`GraphChecked` is what the first reading of a graph asks of its parts one by one, `GraphLinked`
what the second one asks of them together. `buildDocumentImportDag_eq_ok` builds the DAG of a
graph that has both.
-/

namespace AgentContextLint.DocumentImportDag

open Utf16 Metered ImportGraph List
open RepositoryPath (isRepositoryRelativePath)

variable {nodes : List ImportGraphNode} {label : String} {graph : ImportGraphResult}
  {node : ImportGraphNode} {edge : ImportGraphEdge} {index : Nat}

/-! ## Values -/

theorem failIf_neg {condition : Prop} [Decidable condition] {code : DocumentImportDagErrorCode}
    {message : String} (holds : ¬condition) : failIf condition code message = .ok () :=
  if_neg holds

variable {α : Type}

theorem denseArray_eq_ok {value : List α} {limit : Nat} (fits : value.length ≤ limit) :
    denseArray value limit label = .ok () :=
  failIf_neg (Nat.not_lt.mpr fits)

variable {value : Text}

theorem identifier_eq_ok (stable : ImportLexer.isStableIdentifier value = true) :
    identifier value label = .ok value :=
  if_pos stable

theorem pathValue_eq_ok (canonical : isRepositoryRelativePath value = true) :
    pathValue value label = .ok value :=
  if_pos canonical

theorem integer_eq_ok {value maximum : Nat} (bounded : value ≤ maximum)
    (safe : value ≤ maxSafeInteger) : integer value label maximum = .ok value :=
  if_neg (by omega)

theorem nullable_eq_ok {read : α → String → Except DocumentImportDagError α} {value : Option α}
    (ok : ∀ a ∈ value, read a label = .ok a) : nullable read label value = .ok value := by
  cases value with
  | none => rfl
  | some a =>
    rw [nullable, ok a rfl]
    rfl

/-- A position with offsets that are safe integers. -/
structure PositionChecked (value : SourcePosition) : Prop where
  byteOffset : value.byteOffset ≤ maxSafeInteger
  utf16Offset : value.utf16Offset ≤ maxSafeInteger
  line : value.line ≤ maxSafeInteger
  utf16Column : value.utf16Column ≤ maxSafeInteger

/-- A forward range in a source with a stable identifier. -/
structure RangeChecked (value : SourceRange) : Prop where
  sourceId : ImportLexer.isStableIdentifier value.sourceId = true
  start : PositionChecked value.start
  stop : PositionChecked value.stop
  byteOffset : value.start.byteOffset ≤ value.stop.byteOffset
  utf16Offset : value.start.utf16Offset ≤ value.stop.utf16Offset
  line : value.start.line ≤ value.stop.line
  column : value.start.line = value.stop.line → value.start.utf16Column ≤ value.stop.utf16Column

theorem position_eq_ok {value : SourcePosition} (checked : PositionChecked value) :
    position value label = .ok value := by
  rw [position, integer_eq_ok checked.byteOffset checked.byteOffset,
    integer_eq_ok checked.utf16Offset checked.utf16Offset,
    integer_eq_ok checked.line checked.line, integer_eq_ok checked.utf16Column checked.utf16Column]
  rfl

theorem range_eq_ok {value : SourceRange} (checked : RangeChecked value) :
    range value label = .ok value := by
  have bytes := checked.byteOffset
  have units := checked.utf16Offset
  have lines := checked.line
  have column := checked.column
  rw [range, identifier_eq_ok checked.sourceId, position_eq_ok checked.start,
    position_eq_ok checked.stop]
  simp only [ok_bind]
  rw [failIf_neg (by omega)]
  rfl

/-! ## Nodes, edges and issues -/

structure NodeChecked (node : ImportGraphNode) : Prop where
  imports : node.imports.length ≤ 4096
  sha256 : isSha256 node.sha256 = true
  byteLength : node.byteLength ≤ 524288
  depth : node.depth ≤ 32
  documentId : ImportLexer.isStableIdentifier node.documentId = true
  path : isRepositoryRelativePath node.path = true
  sourceId : ImportLexer.isStableIdentifier node.sourceId = true

structure EdgeChecked (edge : ImportGraphEdge) : Prop where
  rawSpecifier : edge.reference.rawSpecifier.length ≤ 4096
  fromDocumentId : ImportLexer.isStableIdentifier edge.fromDocumentId = true
  document : edge.reference.documentId = edge.fromDocumentId
  depth : edge.depth ≤ 33
  importId : ImportLexer.isStableIdentifier edge.reference.id = true
  range : RangeChecked edge.reference.specifierRange
  targetDocumentId : ∀ id ∈ edge.targetDocumentId, ImportLexer.isStableIdentifier id = true
  targetPath : ∀ path ∈ edge.targetPath, isRepositoryRelativePath path = true

structure IssueChecked (issue : ImportGraphIssue) : Prop where
  importId : ∀ id ∈ issue.importId, ImportLexer.isStableIdentifier id = true
  path : isRepositoryRelativePath issue.path = true
  range : ∀ range ∈ issue.range, RangeChecked range
  targetPath : ∀ path ∈ issue.targetPath, isRepositoryRelativePath path = true

def normalNode (node : ImportGraphNode) : NormalizedNode where
  byteLength := node.byteLength
  depth := node.depth
  documentId := node.documentId
  path := node.path
  sha256 := node.sha256
  sourceId := node.sourceId
  state := node.state

def normalEdge (edge : ImportGraphEdge) : NormalizedEdge where
  depth := edge.depth
  fromDocumentId := edge.fromDocumentId
  importId := edge.reference.id
  issueCode := edge.issueCode
  range := edge.reference.specifierRange
  state := edge.state
  targetDocumentId := edge.targetDocumentId
  targetPath := edge.targetPath

theorem normalizeNode_eq_ok (checked : NodeChecked node) :
    normalizeNode node index = .ok (normalNode node) := by
  have bytes := checked.byteLength
  have depth := checked.depth
  rw [normalizeNode, denseArray_eq_ok checked.imports, failIf_neg (by rw [checked.sha256]; decide),
    integer_eq_ok bytes (Nat.le_trans bytes (by decide)),
    integer_eq_ok depth (Nat.le_trans depth (by decide)), identifier_eq_ok checked.documentId,
    pathValue_eq_ok checked.path, identifier_eq_ok checked.sourceId]
  rfl

theorem normalizeEdge_eq_ok (checked : EdgeChecked edge) :
    normalizeEdge edge index = .ok (normalEdge edge) := by
  have depth := checked.depth
  rw [normalizeEdge, failIf_neg (Nat.not_lt.mpr checked.rawSpecifier),
    identifier_eq_ok checked.fromDocumentId]
  simp only [ok_bind]
  rw [failIf_neg (not_not.mpr checked.document),
    integer_eq_ok depth (Nat.le_trans depth (by decide)), identifier_eq_ok checked.importId,
    range_eq_ok checked.range,
    nullable_eq_ok (fun id member => identifier_eq_ok (checked.targetDocumentId id member)),
    nullable_eq_ok (fun path member => pathValue_eq_ok (checked.targetPath path member))]
  rfl

theorem normalizeIssue_eq_ok {issue : ImportGraphIssue}
    (checked : IssueChecked issue) : normalizeIssue issue index = .ok issue := by
  rw [normalizeIssue,
    nullable_eq_ok (fun id member => identifier_eq_ok (checked.importId id member)),
    pathValue_eq_ok checked.path,
    nullable_eq_ok (fun range member => range_eq_ok (checked.range range member)),
    nullable_eq_ok (fun path member => pathValue_eq_ok (checked.targetPath path member))]
  rfl

theorem normalizeNodes_eq_ok {referenceCount index : Nat}
    (checked : ∀ node ∈ nodes, NodeChecked node)
    (few : referenceCount + (nodes.map (·.imports.length)).sum ≤ maxReferences) :
    normalizeNodes referenceCount index nodes = .ok (nodes.map normalNode) := by
  induction nodes generalizing referenceCount index with
  | nil => rfl
  | cons node rest ih =>
    obtain ⟨first, later⟩ := forall_mem_cons.mp checked
    rw [map_cons, sum_cons] at few
    rw [normalizeNodes, denseArray_eq_ok first.imports, ok_bind]
    dsimp only
    rw [failIf_neg (by omega), normalizeNode_eq_ok first, ih later (by omega)]
    rfl

/-! ## Graphs -/

/-- Every part of the graph passes its check, and the counts agree. -/
structure GraphChecked (graph : ImportGraphResult) : Prop where
  contractVersion : graph.contractVersion = "0.1.0"
  entryPath : isRepositoryRelativePath graph.entryPath = true
  entryFile : graph.entryPath ≠ js "."
  nodes : graph.nodes.length ≤ maxDocuments
  edges : graph.edges.length ≤ maxOccurrences - 1
  issues : graph.issues.length ≤ maxGraphIssues
  references : (graph.nodes.map (·.imports.length)).sum ≤ maxReferences
  node : ∀ node ∈ graph.nodes, NodeChecked node
  edge : ∀ edge ∈ graph.edges, EdgeChecked edge
  issue : ∀ issue ∈ graph.issues, IssueChecked issue
  state : graph.state = .complete ↔ graph.issues.length = 0
  usageEdges : graph.usage.edges = graph.edges.length
  usageFiles : graph.usage.files = graph.nodes.length
  usageIssues : graph.usage.issues = graph.issues.length
  totalBytes : graph.usage.totalBytes = (graph.nodes.map (·.byteLength)).sum
  fewBytes : graph.usage.totalBytes ≤ 16777216

def normalGraph (graph : ImportGraphResult) : NormalizedGraph where
  edges := graph.edges.map normalEdge
  entryPath := graph.entryPath
  issues := graph.issues
  nodes := graph.nodes.map normalNode
  state := graph.state

variable {β : Type}

theorem mapM_zipIdx_eq_ok (read : α → Nat → Except DocumentImportDagError β) (value : α → β)
    {as : List α} (each : ∀ a ∈ as, ∀ index, read a index = .ok (value a)) :
    (as.zipIdx.mapM fun entry => read entry.1 entry.2) = .ok (as.map value) := by
  have mapped : (as.zipIdx.mapM fun entry => read entry.1 entry.2) =
      .ok (as.zipIdx.map fun entry => value entry.1) :=
    mapM_eq_ok_map fun entry member => each entry.1 (fst_mem_of_mem_zipIdx member) entry.2
  rw [← Function.comp_def value Prod.fst, ← map_map, zipIdx_map_fst] at mapped
  exact mapped

theorem normalizeGraph_eq_ok (checked : GraphChecked graph) :
    normalizeGraph graph = .ok (normalGraph graph) := by
  have nodes := checked.nodes
  have edges := checked.edges
  have issues := checked.issues
  have bytes := checked.fewBytes
  have small : ∀ {n}, n ≤ 65537 → n ≤ maxSafeInteger := fun few => Nat.le_trans few (by decide)
  have total : (graph.nodes.map normalNode).map (·.byteLength) = graph.nodes.map (·.byteLength) := by
    rw [map_map]
    rfl
  rw [maxDocuments] at nodes
  rw [maxOccurrences] at edges
  rw [maxGraphIssues] at issues
  rw [normalizeGraph, failIf_neg (not_not.mpr checked.contractVersion),
    pathValue_eq_ok checked.entryPath]
  simp only [ok_bind]
  rw [failIf_neg checked.entryFile, denseArray_eq_ok checked.nodes, denseArray_eq_ok checked.edges,
    denseArray_eq_ok checked.issues,
    normalizeNodes_eq_ok checked.node (by rw [Nat.zero_add]; exact checked.references)]
  simp only [ok_bind]
  rw [mapM_zipIdx_eq_ok normalizeEdge normalEdge fun edge member _ => normalizeEdge_eq_ok (checked.edge edge member),
    mapM_zipIdx_eq_ok normalizeIssue id fun issue member _ =>
      normalizeIssue_eq_ok (checked.issue issue member)]
  simp only [ok_bind, map_id, length_map, checked.usageEdges, checked.usageFiles,
    checked.usageIssues, total]
  rw [failIf_neg (not_not.mpr checked.state), integer_eq_ok (small (by omega)) (small (by omega)),
    integer_eq_ok (small (by omega)) (small (by omega)),
    integer_eq_ok (small (by omega)) (small (by omega)),
    integer_eq_ok bytes (Nat.le_trans bytes (by decide))]
  simp only [ok_bind]
  rw [failIf_neg (not_not.mpr rfl), failIf_neg (not_not.mpr rfl), failIf_neg (not_not.mpr rfl),
    failIf_neg (not_not.mpr checked.totalBytes)]
  rfl

/-! ## Documents -/

def documentOf (node : ImportGraphNode) : ImportDagDocument where
  byteLength := node.byteLength
  contentId := contentIdOf node.sha256
  depth := node.depth
  documentId := node.documentId
  path := node.path
  sourceId := node.sourceId
  state := node.state

/-- What the nodes of a graph must have in common. -/
structure NodesLinked (nodes : List ImportGraphNode) : Prop where
  documentIds : (nodes.map (·.documentId)).Nodup
  sourceIds : (nodes.map (·.sourceId)).Nodup
  paths : (nodes.map (·.path)).Nodup
  lengths : ∀ node ∈ nodes, ∀ other ∈ nodes, node.sha256 = other.sha256 →
    node.byteLength = other.byteLength

/-- The documents of the nodes so far, and contents that are theirs. -/
structure DocumentsOf (nodes : List ImportGraphNode) (known : Documents) : Prop where
  documents : known.documents = nodes.map documentOf
  contents : ∀ content ∈ known.contents, ∃ node ∈ nodes,
    content.id = contentIdOf node.sha256 ∧ content.byteLength = node.byteLength

variable {first second : Text}

theorem contentIdOf_injective (same : contentIdOf first = contentIdOf second) : first = second :=
  append_cancel_left same

theorem addContent_eq_ok {contents : List ImportDagContent}
    (ofNodes : ∀ content ∈ contents, ∃ other ∈ nodes,
      content.id = contentIdOf other.sha256 ∧ content.byteLength = other.byteLength)
    (lengths : ∀ other ∈ nodes, other.sha256 = node.sha256 → other.byteLength = node.byteLength) :
    ∃ later, addContent contents (normalNode node) = .ok later ∧
      ∀ content ∈ later, ∃ other ∈ nodes ++ [node],
        content.id = contentIdOf other.sha256 ∧ content.byteLength = other.byteLength := by
  have known : ∀ content ∈ contents, ∃ other ∈ nodes ++ [node],
      content.id = contentIdOf other.sha256 ∧ content.byteLength = other.byteLength :=
    fun content member =>
      let ⟨other, inNodes, same⟩ := ofNodes content member
      ⟨other, mem_append_left _ inNodes, same⟩
  unfold addContent
  dsimp only
  cases found : contents.find? (·.id = contentIdOf (normalNode node).sha256) with
  | none =>
    refine ⟨_, rfl, fun content member => ?_⟩
    rcases mem_append.mp member with member | member
    · exact known content member
    · cases mem_singleton.mp member
      exact ⟨node, by simp, rfl, rfl⟩
  | some existing =>
    obtain ⟨other, inNodes, id, length⟩ := ofNodes existing (mem_of_find?_eq_some found)
    have here := find?_some found
    rw [decide_eq_true_eq] at here
    have agree : existing.byteLength = (normalNode node).byteLength :=
      length.trans (lengths other inNodes (contentIdOf_injective (id.symm.trans here)))
    dsimp only
    rw [failIf_neg (not_not.mpr agree), ok_bind]
    refine ⟨_, rfl, fun content member => ?_⟩
    obtain ⟨before, inContents, rfl⟩ := mem_map.mp member
    split
    · exact known before inContents
    · exact known before inContents

theorem ne_of_nodup_append {key : α → β} {done rest : List α} {a : α}
    (nodup : ((done ++ a :: rest).map key).Nodup) : ∀ b ∈ done, key b ≠ key a := by
  intro b member same
  rw [map_append, map_cons] at nodup
  exact (nodup_append.mp nodup).2.2 _ (mem_map_of_mem member) _ mem_cons_self same

theorem addDocument_eq_ok {done rest : List ImportGraphNode} {known : Documents}
    (linked : NodesLinked (done ++ node :: rest)) (ofDone : DocumentsOf done known) :
    ∃ later, addDocument known (normalNode node) = .ok later ∧ DocumentsOf (done ++ [node]) later := by
  have fresh : ¬∃ document ∈ known.documents, document.documentId = (normalNode node).documentId ∨
      document.sourceId = (normalNode node).sourceId ∨ document.path = (normalNode node).path := by
    rintro ⟨document, member, same⟩
    rw [ofDone.documents] at member
    obtain ⟨other, inDone, rfl⟩ := mem_map.mp member
    rcases same with same | same | same
    · exact ne_of_nodup_append linked.documentIds other inDone same
    · exact ne_of_nodup_append linked.sourceIds other inDone same
    · exact ne_of_nodup_append linked.paths other inDone same
  obtain ⟨contents, added, ofNodes⟩ := addContent_eq_ok ofDone.contents fun other member same =>
    linked.lengths other (mem_append_left _ member) node (by simp) same
  unfold addDocument
  rw [failIf_neg fresh, ok_bind, added, ok_bind]
  refine ⟨_, rfl, ?_, ofNodes⟩
  rw [ofDone.documents, map_append]
  rfl

theorem foldlM_addDocument_eq_ok (linked : NodesLinked nodes) :
    ∃ known, (nodes.map normalNode).foldlM addDocument { documents := [], contents := [] } =
      .ok known ∧ known.documents = nodes.map documentOf := by
  rw [foldlM_map]
  have none : DocumentsOf [] { documents := [], contents := [] } :=
    ⟨rfl, fun _ member => by cases member⟩
  have folded : ∃ known, nodes.foldlM (fun known node => addDocument known (normalNode node))
        { documents := [], contents := [] } = .ok known ∧ DocumentsOf nodes known := by
    refine foldlM_eq_ok DocumentsOf none fun done node rest known split ofDone => ?_
    rw [split] at linked
    exact addDocument_eq_ok linked ofDone
  obtain ⟨known, run, ofNodes⟩ := folded
  exact ⟨known, run, ofNodes.documents⟩

/-! ## Occurrences -/

theorem find?_of_nodup [DecidableEq β] {key : α → β} {as : List α} (nodup : (as.map key).Nodup)
    {a : α} (member : a ∈ as) : as.find? (key · = key a) = some a := by
  induction as with
  | nil => cases member
  | cons b rest ih =>
    obtain ⟨fresh, nodup⟩ := nodup_cons.mp nodup
    rcases mem_cons.mp member with rfl | member
    · rw [find?_cons_of_pos (by simp)]
    · have other : key b ≠ key a := fun same => fresh (same ▸ mem_map_of_mem member)
      rw [find?_cons_of_neg (by simpa using other)]
      exact ih nodup member

theorem documentById_map (nodes : List ImportGraphNode) (id : Text) :
    documentById (nodes.map documentOf) id = (nodes.find? (·.documentId = id)).map documentOf := by
  rw [documentById, find?_map]
  rfl

/-- The document of a node is found by its identifier. -/
theorem documentById_of_mem (linked : NodesLinked nodes) (member : node ∈ nodes) :
    documentById (nodes.map documentOf) node.documentId = some (documentOf node) := by
  rw [documentById_map, find?_of_nodup linked.documentIds member]
  rfl

/-- What the edges of a graph must have in common with its nodes. -/
structure EdgesLinked (nodes : List ImportGraphNode) (edges : List ImportGraphEdge) : Prop where
  importIds : (edges.map (·.reference.id)).Nodup
  owner : ∀ edge ∈ edges, ∃ node ∈ nodes, edge.fromDocumentId = node.documentId ∧
    edge.reference.specifierRange.sourceId = node.sourceId
  target : ∀ edge ∈ edges, EdgeTarget nodes edge

/-- The occurrence of an edge, behind `offset` others and the edges before it. -/
def occurrenceOf (nodes : List ImportGraphNode) (offset : Nat) (edge : ImportGraphEdge)
    (index : Nat) : ImportDagOccurrence where
  contentId := (edge.targetDocumentId.bind fun id => nodes.find? (·.documentId = id)).map
    (contentIdOf ·.sha256)
  depth := edge.depth
  fromDocumentId := some edge.fromDocumentId
  id := occurrenceId (occurrenceFields index (normalEdge edge))
  importId := some edge.reference.id
  issueCode := edge.issueCode
  ordinal := offset + index
  range := some edge.reference.specifierRange
  state := .edge edge.state
  targetDocumentId := edge.targetDocumentId
  targetPath := edge.targetPath

/-- What `targetDocumentId` finds. -/
theorem target_of_edge (nodes : List ImportGraphNode) (edge : ImportGraphEdge) :
    (normalEdge edge).targetDocumentId.bind (documentById (nodes.map documentOf)) =
      (edge.targetDocumentId.bind fun id => nodes.find? (·.documentId = id)).map documentOf := by
  change edge.targetDocumentId.bind _ = _
  cases edge.targetDocumentId with
  | none => rfl
  | some id => exact documentById_map nodes id

/-- The checks on the target of an edge pass. -/
structure TargetPasses (edge : NormalizedEdge) (target : Option ImportDagDocument) : Prop where
  known : ¬(edge.targetDocumentId ≠ none ∧ target = none)
  path : ¬(target ≠ none ∧ edge.targetPath ≠ target.map (·.path) ∧ edge.state ≠ .cycle)
  named : ¬(namesDocument edge.state ∧ target = none)
  failed : ¬(¬namesDocument edge.state ∧ target ≠ none)
  issue : ¬(((edge.state = .loaded ∨ edge.state = .alreadyLoaded) ∧ edge.issueCode ≠ none) ∨
    (edge.state = .cycle ∧ edge.issueCode ≠ some .cycle) ∨
    (edge.state ≠ .loaded ∧ edge.state ≠ .alreadyLoaded ∧ edge.issueCode = none))

theorem targetPasses (linked : NodesLinked nodes) (target : EdgeTarget nodes edge) :
    TargetPasses (normalEdge edge)
      ((edge.targetDocumentId.bind fun id => nodes.find? (·.documentId = id)).map documentOf) := by
  cases target with
  | @document node member state issueCode path id =>
    rw [id, Option.bind_some, find?_of_nodup linked.documentIds member, Option.map_some]
    constructor <;> rcases state with state | state <;>
      simp [normalEdge, namesDocument, documentOf, state, issueCode, path, id]
  | @cycle node member state issueCode id =>
    rw [id, Option.bind_some, find?_of_nodup linked.documentIds member, Option.map_some]
    constructor <;> simp [normalEdge, namesDocument, documentOf, state, issueCode, id]
  | @refusal code refusal issueCode id =>
    rw [id, Option.bind_none, Option.map_none]
    cases state : edge.state with
    | loaded => rw [state] at refusal; cases refusal
    | alreadyLoaded => rw [state] at refusal; cases refusal
    | cycle => rw [state] at refusal; cases refusal
    | _ => constructor <;> simp [normalEdge, namesDocument, state, issueCode, id]

/-- What an edge adds when its identifiers are new. -/
theorem addOccurrence_eq_ok {occurrences : List ImportDagOccurrence} (offset : Nat) (linked : NodesLinked nodes)
    (owner : ∃ node ∈ nodes, edge.fromDocumentId = node.documentId ∧
      edge.reference.specifierRange.sourceId = node.sourceId)
    (target : EdgeTarget nodes edge) (length : occurrences.length = offset + index)
    (newImport : ∀ occurrence ∈ occurrences, occurrence.importId ≠ some edge.reference.id)
    (newId : ∀ occurrence ∈ occurrences,
      occurrence.id ≠ occurrenceId (occurrenceFields index (normalEdge edge))) :
    addOccurrence (nodes.map documentOf) occurrences (normalEdge edge) index =
      .ok (occurrences ++ [occurrenceOf nodes offset edge index]) := by
  obtain ⟨node, member, from_, source⟩ := owner
  have origin : (documentById (nodes.map documentOf) (normalEdge edge).fromDocumentId).map
      (·.sourceId) = some (normalEdge edge).range.sourceId := by
    change (documentById _ edge.fromDocumentId).map _ = some edge.reference.specifierRange.sourceId
    rw [from_, documentById_of_mem linked member, source]
    rfl
  have passes := targetPasses linked target
  unfold addOccurrence
  dsimp only
  rw [failIf_neg (fun ⟨occurrence, inside, same⟩ => newImport occurrence inside same), ok_bind,
    failIf_neg (not_not.mpr origin.symm), ok_bind]
  rw [target_of_edge, failIf_neg passes.known, ok_bind, failIf_neg passes.path, ok_bind,
    failIf_neg passes.named, ok_bind, failIf_neg passes.failed, ok_bind, failIf_neg passes.issue,
    ok_bind, failIf_neg (fun ⟨occurrence, inside, same⟩ => newId occurrence inside same), ok_bind,
    Option.map_map, length]
  rfl

/-! ## Identities of occurrences -/

def entryFields (entry : ImportDagDocument) : List Text :=
  [js "entry", entry.documentId, entry.path]

/-- What the occurrences of a graph are identified by. -/
def occurrenceKeys (graph : ImportGraphResult) : List (List Text) :=
  (graph.nodes.find? (·.path = graph.entryPath)).toList.map (fun entry => entryFields (documentOf entry)) ++
    graph.edges.zipIdx.map fun (edge, index) => occurrenceFields index (normalEdge edge)

/-- What is hashed for the identities of the occurrences. -/
def occurrenceInputs (graph : ImportGraphResult) : List (List UInt8) :=
  (occurrenceKeys graph).map (framedHashInput occurrenceNamespace)

theorem framedHashInput_head {space : Text} {rest rest' : List Text}
    (same : framedHashInput space (first :: rest) = framedHashInput space (second :: rest')) :
    Utf8.encode first = Utf8.encode second := by
  rw [framedHashInput, framedHashInput, append_cancel_left_eq, flatMap_cons,
    flatMap_cons, cons_append, cons_append] at same
  exact (Netstring.frame_append_inj (cons.inj same).2).1

variable {i : Nat}

/-- The first field tells edges from each other. -/
theorem index_of_framedHashInput {j : Nat} {edge other : NormalizedEdge}
    (same : framedHashInput occurrenceNamespace (occurrenceFields i edge) = framedHashInput occurrenceNamespace (occurrenceFields j other)) :
    i = j := by
  have first := framedHashInput_head same
  rw [Netstring.encode_decimalText, Netstring.encode_decimalText] at first
  exact Netstring.decimal_injective first

/-- The first field tells the entry from the edges. -/
theorem entryFields_ne {entry : ImportDagDocument} {edge : NormalizedEdge} :
    framedHashInput occurrenceNamespace (entryFields entry) ≠
      framedHashInput occurrenceNamespace (occurrenceFields i edge) := by
  intro same
  have first := framedHashInput_head same
  rw [Netstring.encode_decimalText] at first
  have letter : (0x65 : UInt8) ∈ Utf8.encode (js "entry") := by decide +kernel
  rw [first] at letter
  exact absurd (Netstring.mem_decimal letter).2 (by decide)

theorem occurrenceId_inj (free : Sha256.CollisionFree (occurrenceInputs graph))
    {first second : List Text} (left : first ∈ occurrenceKeys graph)
    (right : second ∈ occurrenceKeys graph) (same : occurrenceId first = occurrenceId second) :
    framedHashInput occurrenceNamespace first = framedHashInput occurrenceNamespace second :=
  free _ (mem_map_of_mem left) _ (mem_map_of_mem right) (append_cancel_left same)

/-! ## Accepted graphs -/

def entryOf (graph : ImportGraphResult) : Option ImportGraphNode :=
  graph.nodes.find? (·.path = graph.entryPath)

/-- The nodes, the edges and the entry of the graph fit together. -/
structure GraphLinked (graph : ImportGraphResult) : Prop where
  nodes : NodesLinked graph.nodes
  edges : EdgesLinked graph.nodes graph.edges
  entry : graph.nodes = [] ∨ ∃ node ∈ graph.nodes, node.path = graph.entryPath

/-- The occurrences of a graph: that of its entry, then those of its edges. -/
def occurrencesOf (graph : ImportGraphResult) : List ImportDagOccurrence :=
  (entryOf graph).toList.map (fun entry => entryOccurrence (documentOf entry)) ++
    graph.edges.zipIdx.map fun (edge, index) =>
      occurrenceOf graph.nodes (entryOf graph).toList.length edge index

/-- The DAG has the documents, occurrences and issues of the graph. -/
structure Mirrors (graph : ImportGraphResult) (trace : NormalizedTrace) (dag : DocumentImportDag) :
    Prop where
  documents : dag.documents = graph.nodes.map documentOf
  occurrences : dag.occurrences = occurrencesOf graph
  entryDocumentId : dag.entryDocumentId = (entryOf graph).map (·.documentId)
  entryPath : dag.entryPath = graph.entryPath
  graphState : dag.graphState = graph.state
  issues : dag.issues = graph.issues
  traceEventIds : dag.traceEventIds = trace.eventIds
  traceSha256 : dag.traceSha256 = trace.sha256

theorem foldlM_addOccurrence_eq_ok (linked : GraphLinked graph)
    (free : Sha256.CollisionFree (occurrenceInputs graph)) :
    (graph.edges.map normalEdge).zipIdx.foldlM (fun occurrences (edge, index) =>
        addOccurrence (graph.nodes.map documentOf) occurrences edge index)
      ((entryOf graph).toList.map fun entry => entryOccurrence (documentOf entry)) =
      .ok (occurrencesOf graph) := by
  let start := (entryOf graph).toList.map fun entry => entryOccurrence (documentOf entry)
  let made := fun (edge : ImportGraphEdge × Nat) =>
    occurrenceOf graph.nodes (entryOf graph).toList.length edge.1 edge.2
  have folded : ∃ final, graph.edges.zipIdx.foldlM (fun occurrences edge =>
      addOccurrence (graph.nodes.map documentOf) occurrences (normalEdge edge.1) edge.2) start =
        .ok final ∧ final = start ++ graph.edges.zipIdx.map made := by
    refine foldlM_eq_ok (fun done occurrences => occurrences = start ++ done.map made)
      (append_nil start).symm fun done edge rest occurrences split eq => ?_
    have edges : graph.edges = done.map (·.1) ++ edge.1 :: rest.map (·.1) := by
      rw [← zipIdx_map_fst 0 graph.edges, split, map_append, map_cons]
    have member : edge ∈ graph.edges.zipIdx := by simp [split]
    have keyed : ∀ other ∈ graph.edges.zipIdx,
        occurrenceFields other.2 (normalEdge other.1) ∈ occurrenceKeys graph :=
      fun other member => mem_append_right _ (mem_map_of_mem member)
    have position : edge.2 = done.length := by
      have here : graph.edges.zipIdx[done.length]? = some edge := by simp [split]
      rw [getElem?_zipIdx] at here
      obtain ⟨_, -, rfl⟩ := Option.map_eq_some_iff.mp here
      exact Nat.zero_add _
    have importIds := linked.edges.importIds
    have indexes : (graph.edges.zipIdx.map (·.2)).Nodup := by
      rw [zipIdx_map_snd]
      exact nodup_range'
    rw [split] at indexes
    rw [edges] at importIds
    have inEdges : edge.1 ∈ graph.edges := fst_mem_of_mem_zipIdx member
    refine ⟨_, addOccurrence_eq_ok (entryOf graph).toList.length linked.nodes
      (linked.edges.owner _ inEdges) (linked.edges.target _ inEdges) ?_ ?_ ?_, ?_⟩
    · simp [eq, start, position]
    · intro occurrence inside
      rw [eq] at inside
      rcases mem_append.mp inside with first | later
      · obtain ⟨entry, -, rfl⟩ := mem_map.mp first
        exact fun none => by cases none
      · obtain ⟨other, inDone, rfl⟩ := mem_map.mp later
        intro same
        exact ne_of_nodup_append importIds _ (mem_map_of_mem inDone) (Option.some.inj same)
    · intro occurrence inside same
      rw [eq] at inside
      rcases mem_append.mp inside with first | later
      · obtain ⟨entry, isEntry, rfl⟩ := mem_map.mp first
        exact entryFields_ne (occurrenceId_inj free
          (mem_append_left _ (mem_map_of_mem isEntry)) (keyed edge member) same)
      · obtain ⟨other, inDone, rfl⟩ := mem_map.mp later
        have inOthers : other ∈ graph.edges.zipIdx := by simp [split, inDone]
        exact ne_of_nodup_append indexes _ inDone
          (index_of_framedHashInput (occurrenceId_inj free (keyed other inOthers) (keyed edge member)
            same))
    · simp [eq, made]
  obtain ⟨final, run, rfl⟩ := folded
  rw [zipIdx_map, foldlM_map]
  exact run

/-- A graph that passes the checks one by one and together has its DAG built. -/
theorem buildDocumentImportDag_eq_ok {Trace Failure : Type}
    {readTrace : Trace → Except Failure NormalizedTrace} {trace : Trace}
    {normalized : NormalizedTrace} (checked : GraphChecked graph) (linked : GraphLinked graph)
    (free : Sha256.CollisionFree (occurrenceInputs graph))
    (valid : readTrace trace = .ok normalized) :
    ∃ dag, buildDocumentImportDag readTrace graph trace = .ok dag ∧
      Mirrors graph normalized dag := by
  obtain ⟨known, documents, eq⟩ := foldlM_addDocument_eq_ok linked.nodes
  have entry : known.documents.find? (·.path = graph.entryPath) =
      (entryOf graph).map documentOf := by
    rw [eq, find?_map]
    rfl
  have found : ¬(known.documents.length > 0 ∧ (entryOf graph).map documentOf = none) := by
    rintro ⟨some, none⟩
    rw [Option.map_eq_none_iff, entryOf, find?_eq_none] at none
    rcases linked.entry with empty | ⟨node, member, path⟩
    · rw [eq, empty] at some
      exact absurd some (by decide)
    · exact none node member (decide_eq_true path)
  have occurrences := foldlM_addOccurrence_eq_ok linked free
  unfold buildDocumentImportDag
  rw [normalizeGraph_eq_ok checked, valid]
  simp only [Except.mapError, ok_bind]
  unfold assemble
  rw [normalGraph, documents, ok_bind]
  dsimp only
  rw [entry, failIf_neg found, ok_bind, eq, Option.toList_map, map_map]
  simp only [Function.comp_def]
  rw [occurrences, ok_bind]
  exact ⟨_, rfl, rfl, rfl, by rw [Option.map_map]; rfl, rfl, rfl, rfl, rfl, rfl⟩

end AgentContextLint.DocumentImportDag
