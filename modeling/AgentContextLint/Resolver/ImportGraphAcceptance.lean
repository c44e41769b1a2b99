import AgentContextLint.Evidence.ImportGraphShape
import AgentContextLint.Resolver.AcceptedGraphs

/-!
# The DAG builder accepts what the import graph loader returns

`Run.checked` and `Run.linked` derive the checks of the builder from the invariants of the
loader; `buildDocumentImportDag_accepts` puts the two packages together.
-/

namespace AgentContextLint.ImportGraph

open Utf16 RepositoryPath DocumentImportDag List
open ImportLexer (referenceIdentityInput)
open Sha256 (CollisionFree sha256Hex)

/-! ## What is hashed -/

/-- What is hashed for a node: its bytes, its identity and the identity of its references. -/
def nodeInputs (readFile : RelativePath → Except RepositoryFailure ReadOnlyRepositoryFile)
    (syntaxName : ImportDialect) (node : ImportGraphNode) : List (List UInt8) :=
  match readFile node.path with
  | .error _ => []
  | .ok file =>
    file.bytes :: identityInput node.path syntaxName node.sha256 ::
      (Utf8.decode file.bytes).toList.map fun text =>
        referenceIdentityInput ⟨node.documentId, node.sourceId, syntaxName, text⟩

def hashedInputs (input : LoadImportGraphInput) (result : ImportGraphResult) : List (List UInt8) :=
  result.nodes.flatMap (nodeInputs input.repository.readFile input.syntaxName) ++
    occurrenceInputs result

/-! ## Identifiers -/

theorem plain_documentId (path : RelativePath) (syntaxName : ImportDialect) (bytes : List UInt8) :
    ∀ u ∈ (stableIds path syntaxName bytes).documentId, isSurrogate u = false ∧ u ≠ 0 := by
  intro u member
  have word : (js "document:").all (fun u => !isSurrogate u && u != 0) = true := rfl
  rcases mem_append.mp member with inWord | inHash
  · simpa using all_eq_true.mp word u inWord
  · have digit := Sha256.isHexDigit_of_mem_sha256Hex inHash
    simp only [Sha256.isHexDigit, Bool.or_eq_true, Bool.and_eq_true, decide_eq_true_eq] at digit
    refine ⟨?_, ?_⟩
    · simp only [isSurrogate, isHighSurrogate, isLowSurrogate, Bool.or_eq_false_iff,
        Bool.and_eq_false_iff, decide_eq_false_iff_not]
      omega
    · rintro rfl
      exact absurd digit (by decide)

/-- The identity of the references of a document names the document. -/
theorem documentId_of_referenceIdentityInput {first second : ImportLexerInput}
    (left : ∀ u ∈ first.documentId, isSurrogate u = false ∧ u ≠ 0)
    (right : ∀ u ∈ second.documentId, isSurrogate u = false ∧ u ≠ 0)
    (same : referenceIdentityInput first = referenceIdentityInput second) :
    first.documentId = second.documentId := by
  have zero : ∀ {text : Text}, (∀ u ∈ text, isSurrogate u = false ∧ u ≠ 0) →
      (0 : UInt8) ∉ Utf8.encode text :=
    fun plain => Utf8.zero_notMem_encode fun member => (plain 0 member).2 rfl
  simp only [referenceIdentityInput, append_assoc, cons_append] at same
  exact Utf8.encode_injective (wellFormed_of_plain fun u member => (left u member).1)
    (wellFormed_of_plain fun u member => (right u member).1)
    (Netstring.append_cons_inj (zero left) (zero right) same).1

section Nodes

variable {loader : Loader} {node : ImportGraphNode}

theorem NodeOk.plain_documentId (ok : NodeOk loader node) :
    ∀ u ∈ node.documentId, isSurrogate u = false ∧ u ≠ 0 := by
  obtain ⟨file, -, -, eq⟩ := ok.file
  rw [eq, nodeOf_documentId]
  exact ImportGraph.plain_documentId node.path loader.syntaxName file.bytes

/-! ## Checks -/

/-- A position in a text of a file is made of safe integers. -/
theorem positionChecked_of_within {size : Nat} {position : SourcePosition}
    (within : position.Within size) (small : size ≤ 1048576) : PositionChecked position := by
  have safe : ∀ {n}, n ≤ 3145728 → n ≤ maxSafeInteger := fun few => Nat.le_trans few (by decide)
  have bytes := within.byteOffset
  have units := within.utf16Offset
  have line := within.line
  have column := within.utf16Column
  exact ⟨safe (by omega), safe (by omega), safe (by omega), safe (by omega)⟩

theorem rangeChecked_of_rangeOf {sourceId text : Text} {range : SourceRange}
    (stable : ImportLexer.isStableIdentifier sourceId = true) (small : text.length ≤ 1048576)
    (of : ImportLexer.RangeOf sourceId text range) : RangeChecked range where
  sourceId := by rw [of.sourceId]; exact stable
  start := positionChecked_of_within of.start small
  stop := positionChecked_of_within of.stop small
  byteOffset := of.forward.byteOffset
  utf16Offset := of.forward.utf16Offset
  line := of.forward.line
  column := of.forward.column

theorem isSha256_sha256Hex (bytes : List UInt8) : isSha256 (sha256Hex bytes) = true := by
  rw [isSha256, Sha256.length_sha256Hex]
  simp only [beq_self_eq_true, Bool.true_and, all_eq_true]
  exact fun u => Sha256.isHexDigit_of_mem_sha256Hex

theorem NodeOk.checked (admissible : Admissible loader.limits) (ok : NodeOk loader node) :
    NodeChecked node := by
  obtain ⟨file, -, fileBytes, eq⟩ := ok.file
  obtain ⟨_, -, -, -, lexed⟩ := ok.lexed
  have bytes := admissible.maxFileBytes
  exact {
    imports := lexed.count
    sha256 := by rw [eq, nodeOf_sha256]; exact isSha256_sha256Hex _
    byteLength := by rw [eq, nodeOf_byteLength]; omega
    depth := Nat.le_trans ok.depth admissible.maxDepth
    documentId := by rw [eq, nodeOf_documentId]; exact isStableIdentifier_documentId ..
    path := ok.canonical
    sourceId := by rw [eq, nodeOf_sourceId]; exact isStableIdentifier_sourceId .. }

/-- What the builder asks of a reference. -/
structure ReferenceChecked (node : ImportGraphNode) (reference : ImportReference) : Prop where
  rawSpecifier : reference.rawSpecifier.length ≤ 4096
  documentId : reference.documentId = node.documentId
  id : ImportLexer.isStableIdentifier reference.id = true
  sourceId : reference.specifierRange.sourceId = node.sourceId
  range : RangeChecked reference.specifierRange

theorem NodeOk.referenceChecked (admissible : Admissible loader.limits) (ok : NodeOk loader node)
    {reference : ImportReference} (member : reference ∈ node.imports) :
    ReferenceChecked node reference := by
  obtain ⟨input, documentId, sourceId, units, lexed⟩ := ok.lexed
  have bytes := admissible.maxFileBytes
  have range := lexed.specifierRange reference member
  obtain ⟨index, inside, rfl⟩ := mem_iff_getElem.mp member
  have count := lexed.count
  exact {
    rawSpecifier := lexed.rawSpecifier _ member
    documentId := by rw [lexed.documentId _ member, documentId]
    id := by
      rw [lexed.id index _ (getElem?_eq_getElem inside)]
      exact ImportLexer.isStableIdentifier_referenceId input (by omega)
    sourceId := by rw [range.sourceId, sourceId]
    range := rangeChecked_of_rangeOf (by rw [sourceId]; exact (ok.checked admissible).sourceId)
      (by omega) range }

end Nodes

section Runs

variable {loader : Loader} {entryPath : RelativePath} {final : MutableState}

section

variable (run : Run loader entryPath final)

include run

theorem Run.edgeChecked (admissible : Admissible loader.limits)
    {edge : ImportGraphEdge} (member : edge ∈ final.edges) : EdgeChecked edge := by
  obtain ⟨⟨owner, inNodes, from_, inImports, depth, refers⟩, target⟩ := run.edgeOk edge member
  have ok := run.nodeOk owner inNodes
  have checked := ok.checked admissible
  have reference := ok.referenceChecked admissible inImports
  have known : ∀ node ∈ final.nodes, ImportLexer.isStableIdentifier node.documentId = true :=
    fun node member => ((run.nodeOk node member).checked admissible).documentId
  exact {
    rawSpecifier := reference.rawSpecifier
    fromDocumentId := by rw [from_]; exact checked.documentId
    document := by rw [reference.documentId, from_]
    depth := by have := checked.depth; omega
    importId := reference.id
    range := reference.range
    targetDocumentId := by
      intro id found
      cases target with
      | document inNodes _ _ _ named =>
        cases found.symm.trans named
        exact known _ inNodes
      | cycle inNodes _ _ named =>
        cases found.symm.trans named
        exact known _ inNodes
      | refusal _ _ none => cases found.symm.trans none
    targetPath := fun path found =>
      (resolveTarget_canonical ok.canonical (refers path found).resolved).1 }

theorem Run.issueChecked (admissible : Admissible loader.limits)
    {issue : ImportGraphIssue} (member : issue ∈ final.issues) : IssueChecked issue := by
  obtain ⟨path, targetPath, about⟩ := run.issueOk issue member
  rcases about with ⟨noId, noRange⟩ | ⟨owner, inNodes, reference, inImports, id, range⟩
  · exact ⟨fun _ found => (by cases found.symm.trans noId), path,
      fun _ found => (by cases found.symm.trans noRange), targetPath⟩
  · have checked := (run.nodeOk owner inNodes).referenceChecked admissible inImports
    exact ⟨fun _ found => (by cases found.symm.trans id; exact checked.id), path,
      fun _ found => (by cases found.symm.trans range; exact checked.range), targetPath⟩

/-- There are no more references than edges, and those left over in 33 documents. -/
theorem Run.references (admissible : Admissible loader.limits) :
    (final.nodes.map (·.imports.length)).sum ≤ maxReferences := by
  rcases run.shape with ⟨none, -⟩ | ⟨file, forest, tree⟩
  · rw [none]
    exact Nat.zero_le _
  · have entry : nodeOf loader entryPath 0 file ∈ final.nodes := by
      rw [tree.nodes]
      exact mem_cons_self
    have few := ((run.nodeOk _ entry).checked admissible).imports
    have below := tree.importCount
    have depth := admissible.maxDepth
    have edges := run.bounded.edgeSlots
    have most := admissible.maxEdges
    rw [← run.slots, tree.edges] at edges
    rw [Forest.importCount] at below
    rw [tree.nodes, map_cons, sum_cons, maxReferences]
    omega

theorem Run.checked (admissible : Admissible loader.limits)
    (canonical : isRepositoryRelativePath entryPath = true) (notRoot : entryPath ≠ repositoryRoot) :
    GraphChecked (resultOf loader.syntaxName entryPath final) where
  contractVersion := rfl
  entryPath := canonical
  entryFile := notRoot
  nodes := Nat.le_trans run.bounded.files admissible.maxFiles.2
  edges := by
    change final.edges.length ≤ 65536
    rw [run.slots]
    exact Nat.le_trans run.bounded.edgeSlots admissible.maxEdges.2
  issues := Nat.le_trans run.bounded.issues admissible.maxIssues.2
  references := run.references admissible
  node := fun node member => (run.nodeOk node member).checked admissible
  edge := fun _ member => run.edgeChecked admissible member
  issue := fun _ member => run.issueChecked admissible member
  state := by
    change (if final.issues.length = 0 then ImportGraphState.complete else .incomplete) = _ ↔ _
    split
    · rename_i none
      exact ⟨fun _ => none, fun _ => rfl⟩
    · rename_i some
      exact ⟨fun complete => (by cases complete), fun none => absurd none some⟩
  usageEdges := rfl
  usageFiles := rfl
  usageIssues := rfl
  totalBytes := run.bounded.bytes
  fewBytes := Nat.le_trans run.bounded.totalBytes admissible.maxTotalBytes.2

end

/-! ## Links -/

def stateInputs (loader : Loader) (state : MutableState) : List (List UInt8) :=
  state.nodes.flatMap (nodeInputs loader.readFile loader.syntaxName)

section

variable (run : Run loader entryPath final)

include run

theorem identityInputs_subset :
    identityInputs (resultOf loader.syntaxName entryPath final) ⊆ stateInputs loader final := by
  intro hashed member
  obtain ⟨node, inNodes, rfl⟩ := mem_map.mp member
  obtain ⟨file, read, -, -⟩ := (run.nodeOk node inNodes).file
  refine mem_flatMap.mpr ⟨node, inNodes, ?_⟩
  rw [nodeInputs, read]
  exact mem_cons_of_mem _ mem_cons_self

/-- Nodes with the same digest have the same bytes. -/
theorem Run.lengths (free : CollisionFree (stateInputs loader final))
    {node other : ImportGraphNode} (member : node ∈ final.nodes) (otherMember : other ∈ final.nodes)
    (same : node.sha256 = other.sha256) : node.byteLength = other.byteLength := by
  have bytes : ∀ {node}, node ∈ final.nodes → ∃ bytes ∈ stateInputs loader final,
      node.sha256 = sha256Hex bytes ∧ node.byteLength = bytes.length := by
    intro node member
    obtain ⟨file, read, -, eq⟩ := (run.nodeOk node member).file
    refine ⟨file.bytes, mem_flatMap.mpr ⟨node, member, ?_⟩, ?_, ?_⟩
    · rw [nodeInputs, read]
      exact mem_cons_self
    · rw [eq, nodeOf_sha256]
    · rw [eq, nodeOf_byteLength]
  obtain ⟨first, hashed, digest, length⟩ := bytes member
  obtain ⟨second, hashed', digest', length'⟩ := bytes otherMember
  rw [digest, digest'] at same
  rw [length, length', free _ hashed _ hashed' same]

theorem Run.nodesLinked
    (free : CollisionFree (stateInputs loader final)) : NodesLinked final.nodes where
  documentIds := (run.rooted (free.subset (identityInputs_subset run))).documentIds
  sourceIds := (run.rooted (free.subset (identityInputs_subset run))).sourceIds
  paths := run.tracked.nodup
  lengths := fun _ member _ otherMember => run.lengths free member otherMember

/-- The identifier of a reference names its document. -/
theorem Run.document_of_reference (free : CollisionFree (stateInputs loader final))
    {node other : ImportGraphNode} (member : node ∈ final.nodes) (otherMember : other ∈ final.nodes)
    {reference otherReference : ImportReference} (of : reference ∈ node.imports)
    (ofOther : otherReference ∈ other.imports) (same : reference.id = otherReference.id) :
    node.documentId = other.documentId := by
  have hashes : ∀ {node reference}, node ∈ final.nodes → reference ∈ node.imports →
      ∃ input index, referenceIdentityInput input ∈ stateInputs loader final ∧
        reference.id = ImportLexer.referenceId input index ∧
        input.documentId = node.documentId := by
    intro node reference member of
    rcases (run.nodeOk node member).read with none | ⟨file, text, read, decoded, -, lexed⟩
    · rw [none] at of
      cases of
    · obtain ⟨index, inside, rfl⟩ := mem_iff_getElem.mp of
      refine ⟨_, index, mem_flatMap.mpr ⟨node, member, ?_⟩,
        lexed.id index _ (getElem?_eq_getElem inside), rfl⟩
      rw [nodeInputs, read]
      refine mem_cons_of_mem _ (mem_cons_of_mem _ (mem_map_of_mem ?_))
      rw [decoded]
      exact mem_singleton_self _
  obtain ⟨input, index, hashed, id, document⟩ := hashes member of
  obtain ⟨input', index', hashed', id', document'⟩ := hashes otherMember ofOther
  rw [id, id'] at same
  have inputs := free _ hashed _ hashed' (ImportLexer.referenceId_inj same).1
  rw [← document, ← document']
  refine documentId_of_referenceIdentityInput ?_ ?_ inputs
  · rw [document]
    exact (run.nodeOk node member).plain_documentId
  · rw [document']
    exact (run.nodeOk other otherMember).plain_documentId

end

/-- A list has different values when each fibre of a key has, and values determine the key. -/
theorem nodup_map_of_fibres {α κ β : Type} [DecidableEq κ] (key : α → κ) {value : α → β}
    {as : List α} (fibre : ∀ a ∈ as, ((as.filter (key · = key a)).map value).Nodup)
    (apart : ∀ a ∈ as, ∀ b ∈ as, value a = value b → key a = key b) : (as.map value).Nodup := by
  rw [Nodup, pairwise_map]
  refine pairwise_of_forall_sublist fun {a b} sublist same => ?_
  have first := sublist.subset mem_cons_self
  have second := sublist.subset (mem_cons_of_mem a mem_cons_self)
  have keys := apart a first b second same
  have kept := sublist.filter (fun c => decide (key c = key a))
  rw [filter_cons_of_pos (by simp), filter_cons_of_pos (by simp [keys]), filter_nil] at kept
  have nodup := (fibre a first).sublist (kept.map value)
  exact (nodup_cons.mp nodup).1 (by simp [same])

section

variable (run : Run loader entryPath final)

include run

/-- The edges of a document have different references. -/
theorem Run.edgesFrom_nodup (documentIds : (final.nodes.map (·.documentId)).Nodup)
    {node : ImportGraphNode} (member : node ∈ final.nodes) :
    ((Forest.edgesFrom node.documentId final.edges).map (·.id)).Nodup := by
  rcases run.shape with ⟨none, -⟩ | ⟨file, forest, tree⟩
  · rw [none] at member
    cases member
  · rw [tree.nodes] at member documentIds
    obtain ⟨below, inTree⟩ := Forest.exists_subtree member
    have fits : forest.Matches (nodeOf loader entryPath 0 file).documentId := by
      rw [nodeOf_documentId]
      exact tree.fits
    have branches := tree.branches _ inTree
    rw [tree.edges, Forest.edgesFrom_of_tree fits documentIds _ inTree]
    obtain ⟨_, -, -, -, lexed⟩ := (run.nodeOk node (tree.nodes ▸ member)).lexed
    exact lexed.nodup.sublist (branches.sublist.map _)

theorem Run.edgesLinked (admissible : Admissible loader.limits)
    (free : CollisionFree (stateInputs loader final)) :
    EdgesLinked final.nodes final.edges where
  importIds := by
    refine nodup_map_of_fibres (·.fromDocumentId) (fun edge member => ?_) fun edge member other otherMember same => ?_
    · obtain ⟨owner, inNodes, from_, -⟩ := (run.edgeOk edge member).owner
      have nodup := run.edgesFrom_nodup (run.nodesLinked free).documentIds inNodes
      rw [Forest.edgesFrom, map_map, ← from_] at nodup
      exact nodup
    · obtain ⟨owner, inNodes, from_, inImports, -⟩ := (run.edgeOk edge member).owner
      obtain ⟨owner', inNodes', from', inImports', -⟩ := (run.edgeOk other otherMember).owner
      rw [from_, from']
      exact run.document_of_reference free inNodes inNodes' inImports inImports' same
  owner := fun edge member => by
    obtain ⟨owner, inNodes, from_, inImports, -⟩ := (run.edgeOk edge member).owner
    exact ⟨owner, inNodes, from_,
      ((run.nodeOk owner inNodes).referenceChecked admissible inImports).sourceId⟩
  target := fun edge member => (run.edgeOk edge member).target

theorem Run.linked (admissible : Admissible loader.limits)
    (free : CollisionFree (stateInputs loader final)) :
    GraphLinked (resultOf loader.syntaxName entryPath final) where
  nodes := run.nodesLinked free
  edges := run.edgesLinked admissible free
  entry := by
    rcases run.shape with ⟨none, -⟩ | ⟨file, forest, tree⟩
    · exact .inl none
    · refine .inr ⟨nodeOf loader entryPath 0 file, ?_, nodeOf_path ..⟩
      change _ ∈ final.nodes
      rw [tree.nodes]
      exact mem_cons_self

end

end Runs

/-! ## Both packages -/

def dagArcs (dag : DocumentImportDag) : List (Text × Text) :=
  dag.occurrences.filterMap fun occurrence =>
    if occurrence.state = .edge .loaded ∨ occurrence.state = .edge .alreadyLoaded then
      occurrence.fromDocumentId.bind fun origin => occurrence.targetDocumentId.map (origin, ·)
    else none

theorem dagArcs_of_mirrors {graph : ImportGraphResult} {trace : NormalizedTrace}
    {dag : DocumentImportDag} (mirrors : Mirrors graph trace dag) :
    dagArcs dag = resolvedArcs graph.edges := by
  have entry : ((entryOf graph).toList.map fun entry =>
      entryOccurrence (DocumentImportDag.documentOf entry)).filterMap (fun occurrence =>
        if occurrence.state = .edge .loaded ∨ occurrence.state = .edge .alreadyLoaded then
          occurrence.fromDocumentId.bind fun origin => occurrence.targetDocumentId.map (origin, ·)
        else none) = [] := by
    cases entryOf graph <;> simp [entryOccurrence]
  rw [dagArcs, mirrors.occurrences, occurrencesOf, filterMap_append, entry, nil_append,
    filterMap_map, resolvedArcs, arcsOf]
  conv_rhs => rw [← zipIdx_map_fst 0 graph.edges, filterMap_map]
  refine filterMap_congr fun edge _ => ?_
  simp only [Function.comp_apply, occurrenceOf, Option.bind_some, Bool.or_eq_true, beq_iff_eq,
    ImportDagOccurrenceState.edge.injEq]

/-- Every result of the loader is accepted by the builder along with any valid trace, and the
DAG has its nodes, its edges and its resolved arcs, unless two of the inputs hashed collide. -/
theorem buildDocumentImportDag_accepts {Trace Failure : Type}
    (readTrace : Trace → Except Failure NormalizedTrace)
    (extractMarkdownContent : (sourceId text : Text) → Option MarkdownExtractionResult)
    (input : LoadImportGraphInput) (limitsValue : Option ImportGraphLimitsInput)
    (result : ImportGraphResult) (trace : Trace) (normalized : NormalizedTrace)
    (run : loadImportGraph extractMarkdownContent input limitsValue = .ok result)
    (valid : readTrace trace = .ok normalized)
    (free : CollisionFree (hashedInputs input result)) :
    ∃ dag, buildDocumentImportDag readTrace result trace = .ok dag ∧
      Mirrors result normalized dag ∧ dagArcs dag = resolvedArcs result.edges := by
  obtain ⟨canonical, notRoot, loader, final, admissible, -, readFile, -, syntaxName, -, whole, rfl,
    -⟩ := loadImportGraph_eq_ok run
  rw [← syntaxName] at free ⊢
  rw [hashedInputs, ← readFile, ← syntaxName] at free
  have states := free.subset (subset_append_left _ _)
  have occurrences := free.subset (subset_append_right _ _)
  obtain ⟨dag, built, mirrors⟩ := buildDocumentImportDag_eq_ok
    (whole.checked admissible canonical notRoot) (whole.linked admissible states) occurrences valid
  exact ⟨dag, built, mirrors, dagArcs_of_mirrors mirrors⟩

/-- A reader of traces that are read already. -/
def readNormalized (trace : NormalizedTrace) : Except Unit NormalizedTrace := .ok trace

/-- The graph of the cycle is accepted and mirrored. -/
theorem buildDocumentImportDag_accepts_cycle :
    ∃ result dag, loadImportGraph plainMarkdown importCycle none = .ok result ∧
      buildDocumentImportDag readNormalized result ⟨[js "event"], []⟩ = .ok dag ∧
      result.edges.map (·.state) = [.loaded, .cycle, .cycle, .unavailable, .alreadyLoaded] ∧
      Mirrors result ⟨[js "event"], []⟩ dag ∧ dagArcs dag = resolvedArcs result.edges := by
  have run : (loadImportGraph plainMarkdown importCycle none).map (fun result =>
      (result.edges.map (·.state),
        decide (CollisionFree (hashedInputs importCycle result)))) =
        .ok ([.loaded, .cycle, .cycle, .unavailable, .alreadyLoaded], true) := by decide +kernel
  obtain ⟨result, run, shape⟩ := Metered.eq_ok_of_map run
  obtain ⟨states, free⟩ := Prod.mk.inj shape
  obtain ⟨dag, built, mirrors, arcs⟩ := buildDocumentImportDag_accepts readNormalized plainMarkdown
    importCycle none result ⟨[js "event"], []⟩ _ run rfl (of_decide_eq_true free)
  exact ⟨result, dag, run, built, states, mirrors, arcs⟩

end AgentContextLint.ImportGraph
