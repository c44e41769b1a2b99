import AgentContextLint.Lib.SourceRemoval
import AgentContextLint.Resolver.ClaudeCodeProfile
import AgentContextLint.Resolver.GeminiCliProfile

/-!
# The effective context

Model of `packages/resolver/src/effective-context.ts` for resolutions of the Claude Code and the
Gemini CLI profiles: the documents of a resolution, what stands before what, a sequence of those
that are not inactive, and everything that stays open.

Documents are named by a digest of their path. The ambiguities of a run are collected from
requests, one after the other (`addAmbiguities`); an ambiguity that is there already is not
added again.
-/

namespace AgentContextLint.EffectiveContext

open Utf16 Utf8 Metered Sorting

/-! ## Records -/

inductive EffectiveDocumentState
  | conditional
  | effective
  | empty
  | inactive
  | shadowed
  | unavailable
  deriving DecidableEq

inductive EffectiveContentState
  | complete
  | identityOnly
  | truncated
  | unavailable
  deriving DecidableEq

/-- `"none"`, `"prefix"` and `"unknown"`. -/
inductive Truncation
  | whole
  | front
  | unknown
  deriving DecidableEq

structure EffectiveContextDocument where
  activation : ActivationState
  availableBytes : Option Nat
  contentSha256 : Option Text
  contentState : EffectiveContentState
  formatId : Text
  id : Text
  includedBytes : Option Nat
  order : Option Nat
  path : RelativePath
  reasonCode : Text
  sourceDocumentId : Option Text
  state : EffectiveDocumentState
  text : Option Text
  truncation : Truncation

/-- The order that a profile documents, or that was observed. -/
inductive PrecedenceKind
  | documentedPartialOrder
  | observedLoadOrder

structure EffectiveContextPrecedence where
  afterDocumentId : Text
  beforeDocumentId : Text
  kind : PrecedenceKind

inductive ConflictPrecedence
  | documentedOrder
  | semanticWinnerUnknown
  | undefined
  | unknownActivation
  deriving DecidableEq

structure EffectiveContextConflictOpportunity where
  firstDocumentId : Text
  id : Text
  precedence : ConflictPrecedence
  secondDocumentId : Text

inductive EffectiveContextAmbiguityKind
  | activation
  | externalContext
  | importResolution
  | partialProfile
  | precedence
  | semanticPrecedence
  | targetScope
  | truncation
  deriving DecidableEq

def EffectiveContextAmbiguityKind.text : EffectiveContextAmbiguityKind → Text
  | .activation => js "activation"
  | .externalContext => js "external-context"
  | .importResolution => js "import-resolution"
  | .partialProfile => js "partial-profile"
  | .precedence => js "precedence"
  | .semanticPrecedence => js "semantic-precedence"
  | .targetScope => js "target-scope"
  | .truncation => js "truncation"

structure EffectiveContextAmbiguity where
  documentIds : List Text
  id : Text
  kind : EffectiveContextAmbiguityKind
  reasonCode : Text

structure EffectiveContextOccurrence where
  contentId : Option Text
  entryDocumentId : Text
  id : Text
  issueCode : Option ImportGraphIssueCode
  ordinal : Nat
  state : ImportDagOccurrenceState
  targetDocumentId : Option Text
  targetPath : Option RelativePath

/-- `"exact"`, `"partial"` and `"unknown"`. -/
inductive AssemblyState
  | exact
  | incomplete
  | unknown
  deriving DecidableEq

structure EffectiveContextAssembly where
  byteLength : Option Nat
  documentIds : List Text
  sha256 : Option Text
  state : AssemblyState
  text : Option Text

/-- `"partial"`, `"total"`, `"unknown"` and `"unordered"`. -/
inductive ContextOrdering
  | incomplete
  | total
  | unknown
  | unordered
  deriving DecidableEq

structure EffectiveContextResolution where
  ambiguities : List EffectiveContextAmbiguity
  analysisIsComplete : Bool
  assembly : EffectiveContextAssembly
  clientVersion : Option Text
  conflicts : List EffectiveContextConflictOpportunity
  documents : List EffectiveContextDocument
  occurrences : List EffectiveContextOccurrence
  ordering : ContextOrdering
  precedence : List EffectiveContextPrecedence
  profileId : Text
  profileVersion : Text
  sequence : List Text
  specSnapshotId : Text
  surfaceId : Text
  targetPath : RelativePath

inductive EffectiveContextProfileResolution
  | claudeCode (value : ClaudeCodeProfileResolution)
  | geminiCli (value : GeminiCliResolution)

structure ResolveEffectiveContextInput where
  importDags : List DocumentImportDag
  profileResolution : EffectiveContextProfileResolution
  targetPath : RelativePath

inductive EffectiveContextErrorCode
  | invalidInput
  | invalidRelationship
  | resourceLimit

structure EffectiveContextError where
  code : EffectiveContextErrorCode
  message : String

def failIf (condition : Prop) [Decidable condition] (code : EffectiveContextErrorCode)
    (message : String) : Except EffectiveContextError Unit :=
  refuseIf condition ⟨code, message⟩

/-! ## Limits -/

def maximumAmbiguities : Nat := 65536

def maximumConflicts : Nat := 65536

def maximumDocuments : Nat := 4096

def maximumImportDags : Nat := 4096

def maximumOccurrences : Nat := 65537

/-! ## Names -/

/-- The digest of some texts, each with its length in front. -/
def hash (values : List Text) : Text :=
  Sha256.sha256Hex (values.flatMap fun value =>
    ByteFields.be64 (byteLength value) ++ encode value)

def documentId (profileId : Text) (path : RelativePath) : Text :=
  js "effective-document:" ++ (hash [profileId, path]).take 32

def contentDigest (value : Option Text) : Option Text :=
  value.map fun text => Sha256.sha256Hex (encode text)

/-! ## Ambiguities -/

/-- The arguments of `addAmbiguity` besides the list. -/
structure AmbiguityRequest where
  kind : EffectiveContextAmbiguityKind
  reasonCode : Text
  documentIds : List Text

def AmbiguityRequest.ambiguity (request : AmbiguityRequest) : EffectiveContextAmbiguity :=
  let sortedIds := sortBy compareBytes request.documentIds
  { documentIds := sortedIds
    id := js "ambiguity:" ++ (hash (request.kind.text :: request.reasonCode :: sortedIds)).take 32
    kind := request.kind
    reasonCode := request.reasonCode }

variable (output : List EffectiveContextAmbiguity)

def addAmbiguity (request : AmbiguityRequest) :
    Except EffectiveContextError (List EffectiveContextAmbiguity) :=
  let entry := request.ambiguity
  if entry.id ∈ output.map (·.id) then .ok output
  else do
    failIf (output.length ≥ maximumAmbiguities) .resourceLimit "ambiguity count exceeds its limit"
    return output ++ [entry]

def addAmbiguities (requests : List AmbiguityRequest) :
    Except EffectiveContextError (List EffectiveContextAmbiguity) :=
  requests.foldlM addAmbiguity output

/-! ## Documents -/

/-- What `makeDocument` is given. -/
structure DocumentInput where
  activation : ActivationState
  contentState : EffectiveContentState
  formatId : Text
  order : Option Nat
  path : RelativePath
  profileId : Text
  reasonCode : Text
  sourceDocumentId : Option Text
  state : EffectiveDocumentState
  text : Option Text

def makeDocument (input : DocumentInput) : EffectiveContextDocument where
  activation := input.activation
  availableBytes := input.text.map byteLength
  contentSha256 := contentDigest input.text
  contentState := input.contentState
  formatId := input.formatId
  id := documentId input.profileId input.path
  includedBytes := input.text.map byteLength
  order := input.order
  path := input.path
  reasonCode := input.reasonCode
  sourceDocumentId := input.sourceDocumentId
  state := input.state
  text := input.text
  truncation := .whole

def claudeState : ActivationState → EffectiveDocumentState
  | .active => .effective
  | .inactive => .inactive
  | .indeterminate => .conditional

def claudeDocument (candidate : ClaudeCandidateDecision) : EffectiveContextDocument :=
  let text := candidate.syntaxResult.transformedBody
  makeDocument {
    activation := candidate.activation
    contentState := if text = none then .unavailable else .complete
    formatId := if candidate.syntaxResult.format = .memory then js "claude-memory-markdown"
      else js "claude-rule-markdown"
    order := none
    path := candidate.path
    profileId := ClaudeCodeProfile.profileId
    reasonCode := candidate.code.text
    sourceDocumentId := some candidate.syntaxResult.documentId
    state := claudeState candidate.activation
    text }

def candidateAmbiguities (candidate : ClaudeCandidateDecision) : List AmbiguityRequest :=
  let id := (claudeDocument candidate).id
  (if candidate.activation = .indeterminate then
    [⟨.activation, candidate.code.text, [id]⟩] else []) ++
  (candidate.imports.filter (·.state ≠ .loaded)).map fun imported =>
    ⟨.importResolution, imported.state.text, [id]⟩

variable (documents : List EffectiveContextDocument)

/-- `byPath.get`: of several documents at one path the last one counts. -/
def documentAt (path : RelativePath) :
    Option EffectiveContextDocument := documents.reverse.find? (·.path = path)

def precedenceOf (candidate : ClaudeCandidateDecision) : List EffectiveContextPrecedence :=
  match documentAt documents candidate.path with
  | none => []
  | some after => candidate.orderAfter.filterMap fun beforePath =>
    (documentAt documents beforePath).map fun before => {
      afterDocumentId := after.id
      beforeDocumentId := before.id
      kind := .documentedPartialOrder }

/-! ## The sequence -/

def arc (edge : EffectiveContextPrecedence) : Text × Text :=
  (edge.beforeDocumentId, edge.afterDocumentId)

structure TopologicalSequence where
  complete : Bool
  sequence : List Text
  /-- What is added when a cycle stops the loop. -/
  ambiguities : List AmbiguityRequest

def topologicalSequence (edges : List EffectiveContextPrecedence) : TopologicalSequence :=
  let ids := (documents.map (·.id)).eraseDups
  let arcs := (edges.map arc).filter fun arc => arc.1 ∈ ids ∧ arc.2 ∈ ids
  let progress :=
    SourceRemoval.run compareBytes ids arcs ids.length (SourceRemoval.start arcs)
  { complete := progress.sequence.length = ids.length && progress.unique
    sequence := progress.sequence
    ambiguities := if progress.sequence.length < ids.length then
      [⟨.precedence, js "precedence-cycle", ids⟩] else [] }

/-! ## The projection -/

structure Projection where
  ambiguities : List EffectiveContextAmbiguity
  assembly : EffectiveContextAssembly
  clientVersion : Option Text
  documents : List EffectiveContextDocument
  ordering : ContextOrdering
  precedence : List EffectiveContextPrecedence
  profileId : Text
  profileVersion : Text
  sequence : List Text
  specSnapshotId : Text
  surfaceId : Text

def assembly (state : AssemblyState) (documentIds : List Text) (value : Option Text) :
    EffectiveContextAssembly where
  byteLength := value.map byteLength
  documentIds := documentIds
  sha256 := contentDigest value
  state := state
  text := value

def documentsOf (value : ClaudeCodeProfileResolution) : List EffectiveContextDocument :=
  sortBy (comparingBytes (·.path)) (value.candidates.map claudeDocument)

def possible (documents : List EffectiveContextDocument) : List EffectiveContextDocument :=
  documents.filter (·.activation ≠ .inactive)

def projectedPrecedence (value : ClaudeCodeProfileResolution) : List EffectiveContextPrecedence :=
  value.candidates.flatMap (precedenceOf (documentsOf value))

/-- What a resolution leaves open by itself. -/
def resolutionAmbiguities (value : ClaudeCodeProfileResolution) : List AmbiguityRequest :=
  value.candidates.flatMap candidateAmbiguities ++
  value.unresolvedOrdering.map (fun reason =>
    ⟨.precedence, reason, (possible (documentsOf value)).map (·.id)⟩) ++
  if value.externalContext ≠ .supplied then
    [⟨.externalContext, js "claude-external-" ++ value.externalContext.text, []⟩] else []

def projection (value : ClaudeCodeProfileResolution) (ordered : TopologicalSequence)
    (ambiguities : List EffectiveContextAmbiguity) : Projection where
  ambiguities := ambiguities
  assembly := assembly .incomplete ordered.sequence none
  clientVersion := value.runtime.clientVersion
  documents := documentsOf value
  ordering := if ordered.complete then .total else .incomplete
  precedence := projectedPrecedence value
  profileId := ClaudeCodeProfile.profileId
  profileVersion := js "0.1.0"
  sequence := ordered.sequence
  specSnapshotId := js "claude-code/2026-08-01"
  surfaceId := ClaudeCodeProfile.surfaceId

def projectClaude (value : ClaudeCodeProfileResolution) :
    Except EffectiveContextError Projection := do
  let ambiguities ← addAmbiguities [] (resolutionAmbiguities value)
  let ordered := topologicalSequence (possible (documentsOf value)) (projectedPrecedence value)
  let ambiguities ← addAmbiguities ambiguities ordered.ambiguities
  return projection value ordered ambiguities

/-! ## Gemini -/

def geminiProfileId : Text := js "gemini-cli"

def geminiDocument (entry : GeminiCliDocumentDecision × Nat) : EffectiveContextDocument :=
  let (candidate, order) := entry
  let text := candidate.syntaxResult.map (·.text)
  makeDocument {
    activation := if candidate.isLoaded then .active else .indeterminate
    contentState := if text = none then .unavailable else .complete
    formatId := js "gemini-context-markdown"
    order := some order
    path := candidate.path
    profileId := geminiProfileId
    reasonCode := if candidate.isLoaded then js "loaded" else js "unavailable"
    sourceDocumentId := candidate.syntaxResult.map (·.documentId)
    state := if candidate.isLoaded then .effective else .unavailable
    text }

def geminiDocuments (value : GeminiCliResolution) : List EffectiveContextDocument :=
  value.documents.zipIdx.map geminiDocument

def loadOrder (effective : List EffectiveContextDocument) : List EffectiveContextPrecedence :=
  (effective.tail.zip effective).map fun (after, before) => {
    afterDocumentId := after.id
    beforeDocumentId := before.id
    kind := .observedLoadOrder }

def geminiEffective (value : GeminiCliResolution) : List EffectiveContextDocument :=
  (geminiDocuments value).filter (·.state = .effective)

def geminiPrecedence (value : GeminiCliResolution) : List EffectiveContextPrecedence :=
  loadOrder (geminiEffective value)

def geminiIssueAmbiguity (entry : GeminiCliIssue) : AmbiguityRequest where
  kind := if entry.code = .importPartial then .importResolution else .partialProfile
  reasonCode := entry.code.text
  documentIds := (entry.path.map (documentId geminiProfileId)).toList

/-- What a resolution leaves open by itself. -/
def geminiAmbiguities (value : GeminiCliResolution) : List AmbiguityRequest :=
  ((geminiDocuments value).filter (·.state ≠ .effective)).map (fun document =>
    ⟨.activation, js "gemini-candidate-unavailable", [document.id]⟩) ++
  value.issues.map geminiIssueAmbiguity ++
  if value.externalContext = .unavailable then
    [⟨.externalContext, js "gemini-external-context-unavailable", []⟩] else []

def projectGemini (value : GeminiCliResolution) : Except EffectiveContextError Projection := do
  let ambiguities ← addAmbiguities [] (geminiAmbiguities value)
  let sequence := (geminiEffective value).map (·.id)
  return {
    ambiguities
    assembly := assembly .incomplete sequence none
    clientVersion := some (js "0.53.1")
    documents := geminiDocuments value
    ordering := .total
    precedence := geminiPrecedence value
    profileId := geminiProfileId
    profileVersion := js "0.1.0"
    sequence
    specSnapshotId := js "gemini-cli/2026-08-02.0"
    surfaceId := js "gemini-cli/local-terminal" }

/-! ## Import graphs -/

/-- One round of `validateDags`, on the entries and the number of occurrences so far. -/
def validateDag (documentPaths : List RelativePath) (seen : List RelativePath × Nat)
    (dag : DocumentImportDag) : Except EffectiveContextError (List RelativePath × Nat) := do
  failIf (dag.entryPath ∈ seen.1 ∨ dag.entryPath ∉ documentPaths) .invalidRelationship
    "import DAG entry must uniquely match a profile document"
  let occurrences := seen.2 + dag.occurrences.length
  failIf (occurrences > maximumOccurrences) .resourceLimit
    "aggregate import occurrence count exceeds its limit"
  return (dag.entryPath :: seen.1, occurrences)

def validateDags (value : List DocumentImportDag) (documentPaths : List RelativePath) :
    Except EffectiveContextError Unit := do
  failIf (value.length > maximumImportDags) .resourceLimit
    "input.importDags exceeds its item limit"
  let _ ← value.foldlM (validateDag documentPaths) ([], 0)

def occurrenceAmbiguities (entryId : Text) (occurrence : ImportDagOccurrence) :
    List AmbiguityRequest :=
  match occurrence.state with
  | .entry => []
  | .edge .loaded => []
  | .edge .alreadyLoaded => []
  | .edge state =>
    [{ kind := if state = .limitExceeded then .truncation else .importResolution
       reasonCode := (occurrence.issueCode.map (·.text)).getD (DocumentImportDag.edgeStateText state)
       documentIds := [entryId] }]

def projectOccurrence (dag : DocumentImportDag) (entryId : Text)
    (output : List EffectiveContextOccurrence × List EffectiveContextAmbiguity)
    (occurrence : ImportDagOccurrence) : Except EffectiveContextError
      (List EffectiveContextOccurrence × List EffectiveContextAmbiguity) := do
  failIf (∃ target ∈ occurrence.targetDocumentId, target ∉ dag.documents.map (·.documentId))
    .invalidRelationship "import occurrence target is absent from its DAG"
  let projected := {
    contentId := occurrence.contentId
    entryDocumentId := entryId
    id := occurrence.id
    issueCode := occurrence.issueCode
    ordinal := occurrence.ordinal
    state := occurrence.state
    targetDocumentId := occurrence.targetDocumentId
    targetPath := occurrence.targetPath }
  let ambiguities ← addAmbiguities output.2 (occurrenceAmbiguities entryId occurrence)
  return (output.1 ++ [projected], ambiguities)

def projectDag (output : List EffectiveContextOccurrence × List EffectiveContextAmbiguity)
    (dag : DocumentImportDag) : Except EffectiveContextError
      (List EffectiveContextOccurrence × List EffectiveContextAmbiguity) :=
  match documentAt documents dag.entryPath with
  | none => .error ⟨.invalidRelationship, "import DAG entry document disappeared"⟩
  | some entry => do
    let (occurrences, ambiguities) ←
      dag.occurrences.foldlM (projectOccurrence dag entry.id) output
    let ambiguities ← addAmbiguities ambiguities
      (if dag.graphState = .incomplete then
        [⟨.importResolution, js "import-dag-partial", [entry.id]⟩] else [])
    return (occurrences, ambiguities)

def projectOccurrences (dags : List DocumentImportDag) (documents : List EffectiveContextDocument)
    (ambiguities : List EffectiveContextAmbiguity) :
    Except EffectiveContextError
      (List EffectiveContextOccurrence × List EffectiveContextAmbiguity) :=
  (sortBy (comparingBytes (·.entryPath)) dags).foldlM (projectDag documents) ([], ambiguities)

/-! ## Conflicts -/

/-- The pairs of members of a list, the earlier one first. -/
def pairs {α : Type} : List α → List (α × α)
  | [] => []
  | first :: rest => rest.map (first, ·) ++ pairs rest

def conflictPrecedence (first second : EffectiveContextDocument)
    (precedence : List EffectiveContextPrecedence) (profileId : Text) : ConflictPrecedence :=
  if first.activation = .indeterminate ∨ second.activation = .indeterminate then .unknownActivation
  else if profileId = js "codex-cli" then .semanticWinnerUnknown
  else if (first.id, second.id) ∈ precedence.map arc ∨ (second.id, first.id) ∈ precedence.map arc
  then .documentedOrder
  else .undefined

variable (precedence : List EffectiveContextPrecedence)

def conflictOf (profileId : Text) (pair : EffectiveContextDocument × EffectiveContextDocument) :
    EffectiveContextConflictOpportunity where
  firstDocumentId := pair.1.id
  id := js "conflict:" ++ (hash [pair.1.id, pair.2.id]).take 32
  precedence := conflictPrecedence pair.1 pair.2 precedence profileId
  secondDocumentId := pair.2.id

/-- The pairs of documents that may both be in effect. -/
def opposed (documents : List EffectiveContextDocument) :
    List (EffectiveContextDocument × EffectiveContextDocument) :=
  pairs ((possible documents).filter fun entry => entry.state ≠ .shadowed ∧ entry.state ≠ .empty)

/-- The loops stop at the pair behind the limit. -/
def conflicts (profileId : Text) :
    Except EffectiveContextError (List EffectiveContextConflictOpportunity) := do
  failIf ((opposed documents).length > maximumConflicts) .resourceLimit
    "conflict opportunity count exceeds its limit"
  return (opposed documents).map (conflictOf precedence profileId)

def conflictAmbiguities (conflict : EffectiveContextConflictOpportunity) : List AmbiguityRequest :=
  let documentIds := [conflict.firstDocumentId, conflict.secondDocumentId]
  match conflict.precedence with
  | .undefined => [⟨.precedence, js "conflict-precedence-undefined", documentIds⟩]
  | .unknownActivation => [⟨.activation, js "conflict-activation-unknown", documentIds⟩]
  | .documentedOrder => []
  | .semanticWinnerUnknown => []

/-! ## The resolver -/

def project : EffectiveContextProfileResolution → Except EffectiveContextError Projection
  | .claudeCode value => projectClaude value
  | .geminiCli value => projectGemini value

def EffectiveContextProfileResolution.analysisIsPartial : EffectiveContextProfileResolution → Bool
  | .claudeCode value => value.analysisIsPartial
  | .geminiCli value => value.analysisIsPartial

def profileAmbiguities (analysisIsPartial : Bool) (profileId : Text) : List AmbiguityRequest :=
  if analysisIsPartial then [⟨.partialProfile, profileId ++ js "-profile-partial", []⟩] else []

/-- The fields of the result. -/
def resolution (targetPath : RelativePath) (projection : Projection)
    (occurrences : List EffectiveContextOccurrence)
    (conflicts : List EffectiveContextConflictOpportunity)
    (ambiguities : List EffectiveContextAmbiguity) : EffectiveContextResolution where
  ambiguities := sortBy (comparingBytes (·.id)) ambiguities
  analysisIsComplete := ambiguities = [] && projection.assembly.state = .exact
  assembly := projection.assembly
  clientVersion := projection.clientVersion
  conflicts := conflicts
  documents := projection.documents
  occurrences := occurrences
  ordering := projection.ordering
  precedence := projection.precedence
  profileId := projection.profileId
  profileVersion := projection.profileVersion
  sequence := projection.sequence
  specSnapshotId := projection.specSnapshotId
  surfaceId := projection.surfaceId
  targetPath := targetPath

/-- `resolveEffectiveContext`, given what the profile projects. -/
def resolveProjection (importDags : List DocumentImportDag) (targetPath : RelativePath)
    (projected : Except EffectiveContextError Projection) (analysisIsPartial : Bool) :
    Except EffectiveContextError EffectiveContextResolution := do
  failIf (¬ RepositoryPath.isRepositoryRelativePath targetPath) .invalidInput
    "input.targetPath must be a canonical repository path"
  let projection ← projected
  failIf (projection.documents.length > maximumDocuments) .resourceLimit
    "effective document count exceeds its limit"
  let paths := projection.documents.map (·.path)
  failIf (¬ paths.Nodup) .invalidRelationship
    "profile resolution contains duplicate document paths"
  validateDags importDags paths
  let (occurrences, ambiguities) ←
    projectOccurrences importDags projection.documents projection.ambiguities
  let projectedConflicts ←
    conflicts projection.documents projection.precedence projection.profileId
  let ambiguities ← addAmbiguities ambiguities (projectedConflicts.flatMap conflictAmbiguities)
  let ambiguities ← addAmbiguities ambiguities
    (profileAmbiguities analysisIsPartial projection.profileId)
  return resolution targetPath projection occurrences projectedConflicts ambiguities

def resolveEffectiveContext (input : ResolveEffectiveContextInput) :
    Except EffectiveContextError EffectiveContextResolution :=
  resolveProjection input.importDags input.targetPath (project input.profileResolution)
    input.profileResolution.analysisIsPartial

end AgentContextLint.EffectiveContext
