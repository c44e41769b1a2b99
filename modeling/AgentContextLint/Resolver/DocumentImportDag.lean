import AgentContextLint.Evidence.ImportGraph
import AgentContextLint.Lib.Netstring

/-!
# The document import DAG

Model of `packages/resolver/src/document-import-dag.ts`: a second reading of an import graph,
with checks of its own, into documents, contents and occurrences.

Values come with their types here, so that the tests on records, arrays and literals are gone;
what reads and digests the event trace is a parameter.
-/

namespace AgentContextLint

open Utf16

inductive DocumentImportDagErrorCode
  | invalidGraph
  | invalidInput
  | invalidRelationship
  | resourceLimit

structure DocumentImportDagError where
  code : DocumentImportDagErrorCode
  message : String

/-! ## Records -/

structure ImportDagDocument where
  byteLength : Nat
  contentId : Text
  depth : Nat
  documentId : Text
  path : RelativePath
  sourceId : Text
  state : ImportGraphNodeState

structure ImportDagContent where
  byteLength : Nat
  documentIds : List Text
  id : Text
  sha256 : Text

inductive ImportDagOccurrenceState
  | entry
  | edge (state : ImportGraphEdgeState)
  deriving DecidableEq

structure ImportDagOccurrence where
  contentId : Option Text
  depth : Nat
  fromDocumentId : Option Text
  id : Text
  importId : Option Text
  issueCode : Option ImportGraphIssueCode
  ordinal : Nat
  range : Option SourceRange
  state : ImportDagOccurrenceState
  targetDocumentId : Option Text
  targetPath : Option RelativePath

structure DocumentImportDag where
  recordKind : String
  contractVersion : String
  contents : List ImportDagContent
  documents : List ImportDagDocument
  entryDocumentId : Option Text
  entryPath : RelativePath
  graphState : ImportGraphState
  issues : List ImportGraphIssue
  occurrences : List ImportDagOccurrence
  traceEventIds : List Text
  traceSha256 : Text

namespace DocumentImportDag

/-! ## Limits -/

def maxDocuments : Nat := 4096

def maxGraphIssues : Nat := 4096

def maxOccurrences : Nat := 65537

def maxReferences : Nat := 262144

/-- `Number.MAX_SAFE_INTEGER` -/
def maxSafeInteger : Nat := 2 ^ 53 - 1

/-! ## Values -/

def fail {α : Type} (code : DocumentImportDagErrorCode) (message : String) :
    Except DocumentImportDagError α :=
  .error { code, message }

/-- `if (condition) fail(code, message)` -/
def failIf (condition : Prop) [Decidable condition] (code : DocumentImportDagErrorCode)
    (message : String) : Except DocumentImportDagError Unit :=
  if condition then fail code message else .ok ()

def denseArray {α : Type} (value : List α) (limit : Nat) (label : String) :
    Except DocumentImportDagError Unit :=
  failIf (value.length > limit) .resourceLimit (label ++ " exceeds its item limit")

def identifier (value : Text) (label : String) : Except DocumentImportDagError Text :=
  if ImportLexer.isStableIdentifier value then .ok value
  else fail .invalidGraph (label ++ " must be a stable identifier")

def pathValue (value : Text) (label : String) : Except DocumentImportDagError RelativePath :=
  if RepositoryPath.isRepositoryRelativePath value then .ok value
  else fail .invalidGraph (label ++ " must be a canonical repository path")

def integer (value : Nat) (label : String) (maximum : Nat) : Except DocumentImportDagError Nat :=
  if value > maxSafeInteger ∨ value > maximum then
    fail .invalidGraph (label ++ " must be a bounded non-negative integer")
  else .ok value

/-- `nullablePath`, `nullableIdentifier` and `nullableRange` -/
def nullable {α β : Type} (read : α → String → Except DocumentImportDagError β) (label : String) :
    Option α → Except DocumentImportDagError (Option β)
  | none => .ok none
  | some value => some <$> read value label

def position (value : SourcePosition) (label : String) :
    Except DocumentImportDagError SourcePosition := do
  let byteOffset ← integer value.byteOffset (label ++ ".byteOffset") maxSafeInteger
  let utf16Offset ← integer value.utf16Offset (label ++ ".utf16Offset") maxSafeInteger
  let line ← integer value.line (label ++ ".line") maxSafeInteger
  let utf16Column ← integer value.utf16Column (label ++ ".utf16Column") maxSafeInteger
  return { byteOffset, utf16Offset, line, utf16Column }

def range (value : SourceRange) (label : String) : Except DocumentImportDagError SourceRange := do
  let sourceId ← identifier value.sourceId (label ++ ".sourceId")
  let start ← position value.start (label ++ ".start")
  let stop ← position value.stop (label ++ ".end")
  failIf (stop.byteOffset < start.byteOffset ∨ stop.utf16Offset < start.utf16Offset ∨
      stop.line < start.line ∨ (stop.line = start.line ∧ stop.utf16Column < start.utf16Column))
    .invalidGraph (label ++ " must be a forward half-open range")
  return { sourceId, start, stop }

/-! ## The graph -/

structure NormalizedNode where
  byteLength : Nat
  depth : Nat
  documentId : Text
  path : RelativePath
  sha256 : Text
  sourceId : Text
  state : ImportGraphNodeState

structure NormalizedEdge where
  depth : Nat
  fromDocumentId : Text
  importId : Text
  issueCode : Option ImportGraphIssueCode
  range : SourceRange
  state : ImportGraphEdgeState
  targetDocumentId : Option Text
  targetPath : Option RelativePath

structure NormalizedGraph where
  edges : List NormalizedEdge
  entryPath : RelativePath
  issues : List ImportGraphIssue
  nodes : List NormalizedNode
  state : ImportGraphState

/-- `SHA256` -/
def isSha256 (value : Text) : Bool := value.length == 64 && value.all Sha256.isHexDigit

def nodeLabel (index : Nat) : String := "graph.nodes[" ++ toString index ++ "]"

def normalizeNode (node : ImportGraphNode) (index : Nat) :
    Except DocumentImportDagError NormalizedNode := do
  let label := nodeLabel index
  denseArray node.imports 4096 (label ++ ".imports")
  failIf (isSha256 node.sha256 = false) .invalidGraph (label ++ ".sha256 is invalid")
  let byteLength ← integer node.byteLength (label ++ ".byteLength") 524288
  let depth ← integer node.depth (label ++ ".depth") 32
  let documentId ← identifier node.documentId (label ++ ".documentId")
  let path ← pathValue node.path (label ++ ".path")
  let sourceId ← identifier node.sourceId (label ++ ".sourceId")
  return { byteLength, depth, documentId, path, sha256 := node.sha256, sourceId, state := node.state }

def normalizeEdge (edge : ImportGraphEdge) (index : Nat) :
    Except DocumentImportDagError NormalizedEdge := do
  let label := "graph.edges[" ++ toString index ++ "]"
  failIf (edge.reference.rawSpecifier.length > 4096) .invalidGraph
    (label ++ ".import.rawSpecifier is invalid")
  let fromDocumentId ← identifier edge.fromDocumentId (label ++ ".fromDocumentId")
  failIf (edge.reference.documentId ≠ fromDocumentId) .invalidRelationship
    (label ++ ".import has the wrong document")
  let depth ← integer edge.depth (label ++ ".depth") 33
  let importId ← identifier edge.reference.id (label ++ ".import.id")
  let range ← range edge.reference.specifierRange (label ++ ".import.specifierRange")
  let targetDocumentId ← nullable identifier (label ++ ".targetDocumentId") edge.targetDocumentId
  let targetPath ← nullable pathValue (label ++ ".targetPath") edge.targetPath
  return {
    depth, fromDocumentId, importId, issueCode := edge.issueCode, range, state := edge.state
    targetDocumentId, targetPath }

def normalizeIssue (issue : ImportGraphIssue) (index : Nat) :
    Except DocumentImportDagError ImportGraphIssue := do
  let label := "graph.issues[" ++ toString index ++ "]"
  let importId ← nullable identifier (label ++ ".importId") issue.importId
  let path ← pathValue issue.path (label ++ ".path")
  let range ← nullable range (label ++ ".range") issue.range
  let targetPath ← nullable pathValue (label ++ ".targetPath") issue.targetPath
  return { code := issue.code, importId, path, range, targetPath }

/-- The nodes from `index` on, `referenceCount` references being there before them. -/
def normalizeNodes : (referenceCount index : Nat) → List ImportGraphNode →
    Except DocumentImportDagError (List NormalizedNode)
  | _, _, [] => .ok []
  | referenceCount, index, node :: rest => do
    denseArray node.imports 4096 (nodeLabel index ++ ".imports")
    let referenceCount := referenceCount + node.imports.length
    failIf (referenceCount > maxReferences) .resourceLimit
      "graph import references exceed the limit"
    let node ← normalizeNode node index
    let rest ← normalizeNodes referenceCount (index + 1) rest
    return node :: rest

def normalizeGraph (graph : ImportGraphResult) : Except DocumentImportDagError NormalizedGraph := do
  failIf (graph.contractVersion ≠ "0.1.0") .invalidGraph "graph contract version is unsupported"
  let entryPath ← pathValue graph.entryPath "graph.entryPath"
  failIf (entryPath = js ".") .invalidGraph "graph entry must be a file"
  denseArray graph.nodes maxDocuments "graph.nodes"
  denseArray graph.edges (maxOccurrences - 1) "graph.edges"
  denseArray graph.issues maxGraphIssues "graph.issues"
  let nodes ← normalizeNodes 0 0 graph.nodes
  let edges ← graph.edges.zipIdx.mapM fun (edge, index) => normalizeEdge edge index
  let issues ← graph.issues.zipIdx.mapM fun (issue, index) => normalizeIssue issue index
  failIf (¬(graph.state = .complete ↔ issues.length = 0)) .invalidGraph
    "graph state and issues disagree"
  let usageEdges ← integer graph.usage.edges "graph.usage.edges" maxSafeInteger
  failIf (usageEdges ≠ edges.length) .invalidGraph "graph usage counts disagree"
  let usageFiles ← integer graph.usage.files "graph.usage.files" maxSafeInteger
  failIf (usageFiles ≠ nodes.length) .invalidGraph "graph usage counts disagree"
  let usageIssues ← integer graph.usage.issues "graph.usage.issues" maxSafeInteger
  failIf (usageIssues ≠ issues.length) .invalidGraph "graph usage counts disagree"
  let totalBytes ← integer graph.usage.totalBytes "graph.usage.totalBytes" 16777216
  failIf (totalBytes ≠ (nodes.map (·.byteLength)).sum) .invalidGraph "graph byte usage disagrees"
  return { edges, entryPath, issues, nodes, state := graph.state }

/-! ## Identifiers -/

/-- What `framedHash` hashes: the namespace and the fields, each behind a zero and its length. -/
def framedHashInput (space : Text) (fields : List Text) : List UInt8 :=
  Utf8.encode space ++ fields.flatMap fun field => 0 :: Netstring.frame (Utf8.encode field)

def framedHash (space : Text) (fields : List Text) : Text :=
  Sha256.sha256Hex (framedHashInput space fields)

def occurrenceNamespace : Text := js "document-import-occurrence-v1"

def occurrenceId (fields : List Text) : Text :=
  js "occurrence:" ++ framedHash occurrenceNamespace fields

def edgeStateText : ImportGraphEdgeState → Text
  | .loaded => js "loaded"
  | .alreadyLoaded => js "already-loaded"
  | .cycle => js "cycle"
  | .ambiguous => js "ambiguous"
  | .rejected => js "rejected"
  | .unavailable => js "unavailable"
  | .limitExceeded => js "limit-exceeded"

/-! ## Documents -/

/-- The documents and contents so far. The sets of identifiers and paths are those of the
documents. -/
structure Documents where
  documents : List ImportDagDocument
  contents : List ImportDagContent

def contentIdOf (sha256 : Text) : Text := js "content:" ++ sha256

/-- A node's document joins its content, or is the first one of it. -/
def addContent (contents : List ImportDagContent) (node : NormalizedNode) :
    Except DocumentImportDagError (List ImportDagContent) :=
  let contentId := contentIdOf node.sha256
  match contents.find? (·.id = contentId) with
  | some existing => do
    failIf (existing.byteLength ≠ node.byteLength) .invalidRelationship
      "one content digest has conflicting lengths"
    return contents.map fun content =>
      if content.id = contentId then
        { content with documentIds := content.documentIds ++ [node.documentId] }
      else content
  | none =>
    .ok (contents ++ [{
      byteLength := node.byteLength
      documentIds := [node.documentId]
      id := contentId
      sha256 := node.sha256 }])

def addDocument (known : Documents) (node : NormalizedNode) :
    Except DocumentImportDagError Documents := do
  failIf (∃ document ∈ known.documents, document.documentId = node.documentId ∨
      document.sourceId = node.sourceId ∨ document.path = node.path)
    .invalidRelationship "graph document identities must be unique"
  let contents ← addContent known.contents node
  return {
    documents := known.documents ++ [{
      byteLength := node.byteLength
      contentId := contentIdOf node.sha256
      depth := node.depth
      documentId := node.documentId
      path := node.path
      sourceId := node.sourceId
      state := node.state }]
    contents }

variable (documents : List ImportDagDocument)

/-- `documentsById.get` -/
def documentById (id : Text) : Option ImportDagDocument :=
  documents.find? (·.documentId = id)

/-- The contents by identifier, each with its documents in order. -/
def sortedContents (contents : List ImportDagContent) : List ImportDagContent :=
  (contents.insertionSort fun left right => left.id ≤ right.id).map fun content =>
    { content with documentIds := content.documentIds.insertionSort (· ≤ ·) }

/-! ## Occurrences -/

def entryOccurrence (entry : ImportDagDocument) : ImportDagOccurrence where
  contentId := some entry.contentId
  depth := 0
  fromDocumentId := none
  id := occurrenceId [js "entry", entry.documentId, entry.path]
  importId := none
  issueCode := none
  ordinal := 0
  range := none
  state := .entry
  targetDocumentId := some entry.documentId
  targetPath := some entry.path

def occurrenceFields (index : Nat) (edge : NormalizedEdge) : List Text :=
  [Netstring.decimalText index, edge.fromDocumentId, edge.importId, edgeStateText edge.state,
    edge.targetDocumentId.getD [], edge.targetPath.getD []]

/-- Edges in these states lead to a document. -/
def namesDocument (state : ImportGraphEdgeState) : Prop :=
  state = .loaded ∨ state = .alreadyLoaded ∨ state = .cycle

instance (state : ImportGraphEdgeState) : Decidable (namesDocument state) :=
  inferInstanceAs (Decidable (_ ∨ _))

/-- A round of the loop over the edges. The sets of identifiers are those of the occurrences. -/
def addOccurrence (occurrences : List ImportDagOccurrence) (edge : NormalizedEdge) (index : Nat) :
    Except DocumentImportDagError (List ImportDagOccurrence) := do
  failIf (∃ occurrence ∈ occurrences, occurrence.importId = some edge.importId)
    .invalidRelationship "import occurrence IDs must be unique"
  let origin := documentById documents edge.fromDocumentId
  failIf (some edge.range.sourceId ≠ origin.map (·.sourceId)) .invalidRelationship
    "import edge source is not its document"
  let target := edge.targetDocumentId.bind (documentById documents)
  failIf (edge.targetDocumentId ≠ none ∧ target = none) .invalidRelationship
    "import edge target document is unknown"
  failIf (target ≠ none ∧ edge.targetPath ≠ target.map (·.path) ∧ edge.state ≠ .cycle)
    .invalidRelationship "import edge target path disagrees"
  failIf (namesDocument edge.state ∧ target = none) .invalidRelationship
    "loaded or cyclic edge lacks a target"
  failIf (¬namesDocument edge.state ∧ target ≠ none) .invalidRelationship
    "failed import edge has a target document"
  failIf (((edge.state = .loaded ∨ edge.state = .alreadyLoaded) ∧ edge.issueCode ≠ none) ∨
      (edge.state = .cycle ∧ edge.issueCode ≠ some .cycle) ∨
      (edge.state ≠ .loaded ∧ edge.state ≠ .alreadyLoaded ∧ edge.issueCode = none))
    .invalidRelationship "import edge state and issue disagree"
  let id := occurrenceId (occurrenceFields index edge)
  failIf (∃ occurrence ∈ occurrences, occurrence.id = id) .invalidRelationship
    "occurrence identities collide"
  return occurrences ++ [{
    contentId := target.map (·.contentId)
    depth := edge.depth
    fromDocumentId := some edge.fromDocumentId
    id
    importId := some edge.importId
    issueCode := edge.issueCode
    ordinal := occurrences.length
    range := some edge.range
    state := .edge edge.state
    targetDocumentId := edge.targetDocumentId
    targetPath := edge.targetPath }]

/-! ## The builder -/

/-- What is kept of an event trace. -/
structure NormalizedTrace where
  eventIds : List Text
  sha256 : Text

/-- The DAG of a graph that passed its checks. -/
def assemble (graph : NormalizedGraph) (trace : NormalizedTrace) :
    Except DocumentImportDagError DocumentImportDag := do
  let known ← graph.nodes.foldlM addDocument { documents := [], contents := [] }
  let entry := known.documents.find? (·.path = graph.entryPath)
  failIf (known.documents.length > 0 ∧ entry = none) .invalidRelationship
    "loaded graph does not contain its entry path"
  let occurrences ← graph.edges.zipIdx.foldlM
    (fun occurrences (edge, index) => addOccurrence known.documents occurrences edge index)
    (entry.toList.map entryOccurrence)
  return {
    recordKind := "agent-context-document-import-dag"
    contractVersion := "0.1.0"
    contents := sortedContents known.contents
    documents := known.documents
    entryDocumentId := entry.map (·.documentId)
    entryPath := graph.entryPath
    graphState := graph.state
    issues := graph.issues
    occurrences
    traceEventIds := trace.eventIds
    traceSha256 := trace.sha256 }

/-- `readTrace` stands for `normalizeResolutionEventTrace` and `digestResolutionEventTrace`, which
fail in their own way. -/
def buildDocumentImportDag {Trace Failure : Type}
    (readTrace : Trace → Except Failure NormalizedTrace) (graph : ImportGraphResult)
    (trace : Trace) : Except (DocumentImportDagError ⊕ Failure) DocumentImportDag := do
  let normalized ← (normalizeGraph graph).mapError .inl
  let trace ← (readTrace trace).mapError .inr
  (assemble normalized trace).mapError .inl

end DocumentImportDag

end AgentContextLint
