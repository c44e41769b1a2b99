import AgentContextLint.Evidence.ReadOnlyRepository
import AgentContextLint.Syntax.ImportLexer
import Mathlib.Data.List.Infix

/-!
# The import graph loader

Model of `packages/evidence/src/import-graph-loader.ts`: one document and, depth first, what
it imports, under limits of its own.

The fields of `MutableState` that never change are the `Loader`; the others are a state that
every operation returns anew, with the paths read so far beside them. Maps are functions. The
recursion of `visit` runs on fuel, which the depth limit never lets it use up.
-/

namespace AgentContextLint

open Utf16
open Function (update)

/-! ## Limits -/

structure ImportGraphLimits where
  maxDepth : Nat
  maxEdges : Nat
  maxFanOut : Nat
  maxFiles : Nat
  maxFileBytes : Nat
  maxTotalBytes : Nat
  maxIssues : Nat

/-- `DEFAULT_IMPORT_GRAPH_LIMITS` -/
def defaultImportGraphLimits : ImportGraphLimits where
  maxDepth := 32
  maxEdges := 65536
  maxFanOut := 256
  maxFiles := 4096
  maxFileBytes := 524288
  maxTotalBytes := 16777216
  maxIssues := 4096

/-- `HARD_IMPORT_GRAPH_LIMITS` -/
def hardImportGraphLimits : ImportGraphLimits := defaultImportGraphLimits

/-- The limits as a caller gives them. -/
structure ImportGraphLimitsInput where
  maxDepth : Option Int := none
  maxEdges : Option Int := none
  maxFanOut : Option Int := none
  maxFiles : Option Int := none
  maxFileBytes : Option Int := none
  maxTotalBytes : Option Int := none
  maxIssues : Option Int := none

inductive ImportGraphLoaderErrorCode
  | invalidInput
  | invalidLimit
  deriving DecidableEq

structure ImportGraphLoaderError where
  code : ImportGraphLoaderErrorCode
  message : String
  limitName : Option String
  deriving DecidableEq

/-! ## Graphs -/

inductive ImportGraphIssueCode
  | ambiguousReference
  | cycle
  | depthLimit
  | edgeLimit
  | fanOutLimit
  | fileLimit
  | fileTooLarge
  | invalidUtf8
  | lexFailed
  | readFailed
  | rootBoundary
  | targetRejected
  | totalBytesLimit
  deriving DecidableEq

def ImportGraphIssueCode.text : ImportGraphIssueCode → Text
  | .ambiguousReference => js "IMPORT_GRAPH_AMBIGUOUS_REFERENCE"
  | .cycle => js "IMPORT_GRAPH_CYCLE"
  | .depthLimit => js "IMPORT_GRAPH_DEPTH_LIMIT"
  | .edgeLimit => js "IMPORT_GRAPH_EDGE_LIMIT"
  | .fanOutLimit => js "IMPORT_GRAPH_FAN_OUT_LIMIT"
  | .fileLimit => js "IMPORT_GRAPH_FILE_LIMIT"
  | .fileTooLarge => js "IMPORT_GRAPH_FILE_TOO_LARGE"
  | .invalidUtf8 => js "IMPORT_GRAPH_INVALID_UTF8"
  | .lexFailed => js "IMPORT_GRAPH_LEX_FAILED"
  | .readFailed => js "IMPORT_GRAPH_READ_FAILED"
  | .rootBoundary => js "IMPORT_GRAPH_ROOT_BOUNDARY"
  | .targetRejected => js "IMPORT_GRAPH_TARGET_REJECTED"
  | .totalBytesLimit => js "IMPORT_GRAPH_TOTAL_BYTES_LIMIT"

structure ImportGraphIssue where
  code : ImportGraphIssueCode
  importId : Option Text
  path : RelativePath
  range : Option SourceRange
  targetPath : Option RelativePath

inductive ImportGraphEdgeState
  | loaded
  | alreadyLoaded
  | cycle
  | ambiguous
  | rejected
  | unavailable
  | limitExceeded
  deriving DecidableEq

/-- `import` is a keyword here: the field is `reference`. -/
structure ImportGraphEdge where
  depth : Nat
  fromDocumentId : Text
  reference : ImportReference
  issueCode : Option ImportGraphIssueCode
  state : ImportGraphEdgeState
  targetDocumentId : Option Text
  targetPath : Option RelativePath

inductive ImportGraphNodeState
  | loaded
  | parseFailed

structure ImportGraphNode where
  byteLength : Nat
  depth : Nat
  documentId : Text
  imports : List ImportReference
  path : RelativePath
  sha256 : Text
  sourceId : Text
  state : ImportGraphNodeState

structure ImportGraphUsage where
  edges : Nat
  files : Nat
  issues : Nat
  totalBytes : Nat

/-- `"partial"` is `incomplete` here. -/
inductive ImportGraphState
  | complete
  | incomplete
  deriving DecidableEq

structure ImportGraphResult where
  contractVersion : String
  edges : List ImportGraphEdge
  entryPath : RelativePath
  issues : List ImportGraphIssue
  nodes : List ImportGraphNode
  state : ImportGraphState
  syntaxName : ImportDialect
  usage : ImportGraphUsage

structure LoadImportGraphInput where
  repository : ReadOnlyRepository
  entryPath : RelativePath
  syntaxName : ImportDialect

namespace ImportGraph

/-! ## Validation -/

def failInput {α : Type} (message : String) : Except ImportGraphLoaderError α :=
  .error { code := .invalidInput, message, limitName := none }

def validateInput (input : LoadImportGraphInput) : Except ImportGraphLoaderError Unit :=
  match RepositoryPath.canonicalizeRepositoryRelativePath input.entryPath .posix with
  | .error _ => failInput "entryPath must be a canonical repository file"
  | .ok canonical =>
    if canonical ≠ input.entryPath ∨ input.entryPath = js "." then
      failInput "entryPath must name a canonical repository file"
    else .ok ()

/-- One round of `validateLimits`: the limit given, or the hard limit. -/
def validateLimit (name : String) (minimum hard : Nat) :
    Option Int → Except ImportGraphLoaderError Nat
  | none => .ok hard
  | some candidate =>
    if candidate < minimum ∨ candidate > hard then
      .error {
        code := .invalidLimit
        message := "import graph limit is outside its supported range"
        limitName := some name }
    else .ok candidate.toNat

def validateLimits : Option ImportGraphLimitsInput → Except ImportGraphLoaderError ImportGraphLimits
  | none => .ok defaultImportGraphLimits
  | some value => do
    let hard := hardImportGraphLimits
    let maxDepth ← validateLimit "maxDepth" 0 hard.maxDepth value.maxDepth
    let maxEdges ← validateLimit "maxEdges" 1 hard.maxEdges value.maxEdges
    let maxFanOut ← validateLimit "maxFanOut" 1 hard.maxFanOut value.maxFanOut
    let maxFiles ← validateLimit "maxFiles" 1 hard.maxFiles value.maxFiles
    let maxFileBytes ← validateLimit "maxFileBytes" 1 hard.maxFileBytes value.maxFileBytes
    let maxTotalBytes ← validateLimit "maxTotalBytes" 1 hard.maxTotalBytes value.maxTotalBytes
    let maxIssues ← validateLimit "maxIssues" 1 hard.maxIssues value.maxIssues
    return { maxDepth, maxEdges, maxFanOut, maxFiles, maxFileBytes, maxTotalBytes, maxIssues }

/-! ## Documents -/

/-- What is the same for every document of a graph. -/
structure Loader where
  limits : ImportGraphLimits
  readFile : RelativePath → Except RepositoryFailure ReadOnlyRepositoryFile
  extractMarkdownContent : (sourceId text : Text) → Option MarkdownExtractionResult
  syntaxName : ImportDialect

structure StableIds where
  documentId : Text
  sha256 : Text
  sourceId : Text

variable (path : RelativePath) (syntaxName : ImportDialect)

/-- What `stableIds` hashes for the identity of a document. -/
def identityInput (sha256 : Text) : List UInt8 :=
  Utf8.encode path ++ 0 :: Utf8.encode syntaxName.text ++ 0 :: Utf8.encode sha256

def stableIds (bytes : List UInt8) : StableIds :=
  let sha256 := Sha256.sha256Hex bytes
  let identity := Sha256.sha256Hex (identityInput path syntaxName sha256)
  { documentId := js "document:" ++ identity, sha256, sourceId := js "source:" ++ identity }

structure Resolution where
  path : Option RelativePath
  escaped : Bool

/-- The loop over the segments of a specifier; there is nothing above the root. -/
def resolveSegments : (segments : List Text) → List Text → Option (List Text)
  | segments, [] => some segments
  | segments, segment :: rest =>
    if segment = [] ∨ segment = js "." then resolveSegments segments rest
    else if segment = js ".." then
      if segments = [] then none else resolveSegments segments.dropLast rest
    else resolveSegments (segments ++ [segment]) rest

/-- What is before the last slash, or nothing. -/
def baseOf (fromPath : RelativePath) : Text :=
  if fromPath.contains 0x2f then ((fromPath.reverse.dropWhile (· != 0x2f)).drop 1).reverse else []

def resolveTarget (fromPath : RelativePath) (specifier : Text) : Resolution :=
  if specifier = [] ∨ specifier.contains 0x5c ∨ specifier.head? = some 0x2f then
    { path := none, escaped := false }
  else
    let base := baseOf fromPath
    let start := if base = [] then [] else base.splitOn 0x2f
    match resolveSegments start (specifier.splitOn 0x2f) with
    | none => { path := none, escaped := true }
    | some [] => { path := none, escaped := false }
    | some segments =>
      match RepositoryPath.canonicalizeRepositoryRelativePath
          (RepositoryPath.joinSegments segments) .posix with
      | .ok path => { path := some path, escaped := false }
      | .error _ => { path := none, escaped := false }

def identityKey (identity : ReadOnlyRepositoryIdentity) : Text :=
  js (toString identity.device.length) ++ js ":" ++ identity.device ++ identity.inode

/-! ## State -/

/-- `reads` are the paths that `readFile` was called with. -/
structure MutableState where
  active : RelativePath → Option Text
  activeIdentities : Text → Option Text
  completed : RelativePath → Option Text
  edges : List ImportGraphEdge
  issues : List ImportGraphIssue
  nodes : List ImportGraphNode
  reads : List RelativePath
  edgeSlots : Nat
  halted : Bool
  totalBytes : Nat

def initialState : MutableState where
  active := fun _ => none
  activeIdentities := fun _ => none
  completed := fun _ => none
  edges := []
  issues := []
  nodes := []
  reads := []
  edgeSlots := 0
  halted := false
  totalBytes := 0

variable (limits : ImportGraphLimits)

def addIssue (state : MutableState) (code : ImportGraphIssueCode) (path : RelativePath)
    (reference : Option ImportReference) (targetPath : Option RelativePath) : MutableState :=
  { state with
    issues :=
      if state.issues.length ≥ limits.maxIssues then state.issues
      else state.issues ++ [{
        code, importId := reference.map (·.id), path
        range := reference.map (·.specifierRange), targetPath }] }

/-- `edges.push`, or `edges.splice` at a position. -/
def addEdge (state : MutableState) (edge : ImportGraphEdge) (position : Option Nat) : MutableState :=
  { state with
    edges := match position with
      | none => state.edges ++ [edge]
      | some position => state.edges.take position ++ edge :: state.edges.drop position }

/-! ## Visits -/

structure Parent where
  path : RelativePath
  reference : ImportReference

inductive VisitResult
  | loaded (documentId : Text)
  | failed (documentId : Option Text) (failureCode : ImportGraphIssueCode)

/-- The document that a visit is about, with the key of its identity. -/
structure OpenDocument where
  documentId : Text
  path : RelativePath
  depth : Nat
  identity : Text

/-- A visit up to its loop over the imports: it is over, or there are imports to follow. -/
inductive Opening
  | closed (result : VisitResult) (state : MutableState)
  | opened (document : OpenDocument) (imports : List ImportReference) (state : MutableState)

/-- The references in the bytes of a document. Both ways to fail leave a node behind. -/
def parseDocument (loader : Loader) (ids : StableIds) (bytes : List UInt8) :
    Except ImportGraphIssueCode (List ImportReference) :=
  match Utf8.decode bytes with
  | none => .error .invalidUtf8
  | some text =>
    match ImportLexer.lexImportReferences loader.extractMarkdownContent {
      documentId := ids.documentId, sourceId := ids.sourceId
      syntaxName := loader.syntaxName, text } with
    | .error _ => .error .lexFailed
    | .ok imports => .ok imports

def makeNode (depth : Nat) (ids : StableIds) (bytes : List UInt8) (imports : List ImportReference)
    (state : ImportGraphNodeState) : ImportGraphNode where
  byteLength := bytes.length
  depth := depth
  documentId := ids.documentId
  imports := imports
  path := path
  sha256 := ids.sha256
  sourceId := ids.sourceId
  state := state

def openDocument (loader : Loader) (state : MutableState) (path : RelativePath)
    (depth : Nat) (parent : Option Parent) : Opening :=
  let report := fun (state : MutableState) code =>
    addIssue loader.limits state code ((parent.map (·.path)).getD path) (parent.map (·.reference))
      (some path)
  let state := { state with reads := state.reads ++ [path] }
  match loader.readFile path with
  | .error _ => .closed (.failed none .readFailed) (report state .readFailed)
  | .ok file =>
    let identity := identityKey file.identity
    match state.activeIdentities identity with
    | some activeIdentity => .closed (.failed (some activeIdentity) .cycle) (report state .cycle)
    | none =>
      let bytes := file.bytes
      if bytes.length > loader.limits.maxFileBytes then
        .closed (.failed none .fileTooLarge) (report state .fileTooLarge)
      else if state.totalBytes + bytes.length > loader.limits.maxTotalBytes then
        .closed (.failed none .totalBytesLimit) (report state .totalBytesLimit)
      else
        let state := { state with totalBytes := state.totalBytes + bytes.length }
        let ids := stableIds path loader.syntaxName bytes
        match parseDocument loader ids bytes with
        | .error issueCode =>
          let state := report
            { state with nodes := state.nodes ++ [makeNode path depth ids bytes [] .parseFailed] }
            issueCode
          .closed (.loaded ids.documentId) { state with
            completed := update state.completed path (some ids.documentId) }
        | .ok imports =>
          .opened { documentId := ids.documentId, path, depth, identity } imports { state with
            nodes := state.nodes ++ [makeNode path depth ids bytes imports .loaded]
            active := update state.active path (some ids.documentId)
            activeIdentities :=
              update state.activeIdentities identity (some ids.documentId) }

variable (document : OpenDocument)

def closeDocument (state : MutableState) : MutableState :=
  { state with
    active := update state.active document.path none
    activeIdentities := update state.activeIdentities document.identity none
    completed := update state.completed document.path (some document.documentId) }

def reportFanOut (imports : List ImportReference) (state : MutableState) : MutableState :=
  match imports[limits.maxFanOut]? with
  | some firstOmitted => addIssue limits state .fanOutLimit document.path (some firstOmitted) none
  | none => state

/-! ## References -/

def edgeOf (reference : ImportReference) (state : ImportGraphEdgeState)
    (targetPath : Option RelativePath) (targetDocumentId : Option Text)
    (issueCode : Option ImportGraphIssueCode) : ImportGraphEdge where
  depth := document.depth + 1
  fromDocumentId := document.documentId
  reference := reference
  issueCode := issueCode
  state := state
  targetDocumentId := targetDocumentId
  targetPath := targetPath

/-- A round of the import loop up to the visit of a child: the reference has its edge, or its
target is to be visited. -/
inductive Settlement
  | settled (state : MutableState)
  | descend (targetPath : RelativePath)

def settleReference (referenceIndex : Nat) (reference : ImportReference) (state : MutableState) :
    Settlement :=
  let report := fun code targetPath =>
    addIssue limits state code document.path (some reference) targetPath
  let edge := edgeOf document reference
  if referenceIndex ≥ limits.maxFanOut then
    .settled (addEdge state (edge .limitExceeded none none (some .fanOutLimit)) none)
  else if reference.state ≠ .recognized then
    .settled (addEdge (report .ambiguousReference none)
      (edge .ambiguous none none (some .ambiguousReference)) none)
  else if reference.targetKind ≠ .repositoryPathCandidate then
    .settled (addEdge (report .targetRejected none)
      (edge .rejected none none (some .targetRejected)) none)
  else
    let resolution := resolveTarget document.path reference.rawSpecifier
    match resolution.path with
    | none =>
      let code := if resolution.escaped then .rootBoundary else .targetRejected
      .settled (addEdge (report code none) (edge .rejected none none (some code)) none)
    | some targetPath =>
      match state.active targetPath with
      | some activeDocument =>
        .settled (addEdge (report .cycle (some targetPath))
          (edge .cycle (some targetPath) (some activeDocument) (some .cycle)) none)
      | none =>
        match state.completed targetPath with
        | some completedDocument =>
          .settled (addEdge state
            (edge .alreadyLoaded (some targetPath) (some completedDocument) none) none)
        | none =>
          if document.depth ≥ limits.maxDepth then
            .settled (addEdge (report .depthLimit (some targetPath))
              (edge .limitExceeded (some targetPath) none (some .depthLimit)) none)
          else if state.nodes.length ≥ limits.maxFiles then
            .settled (addEdge (report .fileLimit (some targetPath))
              (edge .limitExceeded (some targetPath) none (some .fileLimit)) none)
          else .descend targetPath

/-- `issueCode.includes("LIMIT") || issueCode === "IMPORT_GRAPH_FILE_TOO_LARGE"` -/
def exceedsLimit (issueCode : ImportGraphIssueCode) : Bool :=
  decide (js "LIMIT" <:+: issueCode.text) || decide (issueCode = .fileTooLarge)

def childEdge (reference : ImportReference) (targetPath : RelativePath) :
    VisitResult → ImportGraphEdge
  | .loaded documentId => edgeOf document reference .loaded (some targetPath) (some documentId) none
  | .failed documentId .cycle =>
    edgeOf document reference .cycle (some targetPath) documentId (some .cycle)
  | .failed _ issueCode =>
    edgeOf document reference (if exceedsLimit issueCode then .limitExceeded else .unavailable)
      (some targetPath) none (some issueCode)

def takeSlot (state : MutableState) : MutableState :=
  { state with edgeSlots := state.edgeSlots + 1 }

/-- The loop over the imports of an open document, with the visit of a child as `descend`. -/
def importLoop (limits : ImportGraphLimits) (document : OpenDocument)
    (descend : MutableState → RelativePath → Nat → Option Parent → VisitResult × MutableState) :
    (referenceIndex : Nat) → List ImportReference → MutableState → MutableState
  | _, [], state => state
  | referenceIndex, reference :: rest, state =>
    if state.halted then state
    else if state.edgeSlots ≥ limits.maxEdges then
      { addIssue limits state .edgeLimit document.path (some reference) none with halted := true }
    else
      match settleReference limits document referenceIndex reference (takeSlot state) with
      | .settled state => importLoop limits document descend (referenceIndex + 1) rest state
      | .descend targetPath =>
        let edgePosition := state.edges.length
        let visited := descend (takeSlot state) targetPath (document.depth + 1)
          (some { path := document.path, reference })
        importLoop limits document descend (referenceIndex + 1) rest
          (addEdge visited.2 (childEdge document reference targetPath visited.1)
            (some edgePosition))

def visit (loader : Loader) :
    (fuel : Nat) → MutableState → RelativePath → Nat → Option Parent →
      VisitResult × MutableState
  | 0, state, _, _, _ => (.failed none .readFailed, state)
  | fuel + 1, state, path, depth, parent =>
    match openDocument loader state path depth parent with
    | .closed result state => (result, state)
    | .opened document imports state =>
      let state := importLoop loader.limits document (visit loader fuel) 0 imports
        (reportFanOut loader.limits document imports state)
      (.loaded document.documentId, closeDocument document state)

def finalState (loader : Loader) (entryPath : RelativePath) : MutableState :=
  (visit loader (loader.limits.maxDepth + 1) initialState entryPath 0 none).2

def resultOf (entryPath : RelativePath) (state : MutableState) : ImportGraphResult where
  contractVersion := "0.1.0"
  edges := state.edges
  entryPath := entryPath
  issues := state.issues
  nodes := state.nodes
  state := if state.issues.length = 0 then .complete else .incomplete
  syntaxName := syntaxName
  usage := {
    edges := state.edges.length
    files := state.nodes.length
    issues := state.issues.length
    totalBytes := state.totalBytes }

/-- What `loadImportGraph` returns, with the paths it reads on the way. -/
def loadAndTrace (extractMarkdownContent : (sourceId text : Text) → Option MarkdownExtractionResult)
    (input : LoadImportGraphInput) (limitsValue : Option ImportGraphLimitsInput) :
    Except ImportGraphLoaderError (ImportGraphResult × List RelativePath) := do
  validateInput input
  let limits ← validateLimits limitsValue
  let loader : Loader := {
    limits, readFile := input.repository.readFile, extractMarkdownContent
    syntaxName := input.syntaxName }
  let state := finalState loader input.entryPath
  return (resultOf input.syntaxName input.entryPath state, state.reads)

def loadImportGraph
    (extractMarkdownContent : (sourceId text : Text) → Option MarkdownExtractionResult)
    (input : LoadImportGraphInput) (limitsValue : Option ImportGraphLimitsInput) :
    Except ImportGraphLoaderError ImportGraphResult :=
  (·.1) <$> loadAndTrace extractMarkdownContent input limitsValue

end ImportGraph

end AgentContextLint
