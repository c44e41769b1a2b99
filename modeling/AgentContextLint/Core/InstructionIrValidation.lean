import AgentContextLint.Core.InstructionIrRecords
import AgentContextLint.Lib.DepthFirst

/-!
# Validation of instruction IR

Model of `validateInstructionIr` in `packages/core/src/ir-validation.ts`: how the records of a bundle
refer to each other. The walk over the nodes of a source is `DepthFirst`.
-/

namespace AgentContextLint.IrValidation

open Utf16 Checked

/-! ## The tree of a source -/

/-- `$.nodes[id=…]` -/
def nodePath (id : Text) : Text := js "$.nodes[id=" ++ id ++ js "]"

/-- The state of the loop over the children of a node. -/
structure Siblings where
  previous : Option NodeFacts
  parentByChild : Parents

variable (nodes : Nodes)

def linkChild (node : NodeFacts) (index : Nat) (siblings : Siblings) (childId : Text) :
    Validated Siblings :=
  let childPath := itemPath (fieldPath (nodePath node.id) "childIds") index
  match nodes.get? childId with
  | none => do
    addIssue .invalidRelationship childPath "references an unknown AST node"
    return siblings
  | some child => do
    addIssueIf (child.sourceId ≠ node.sourceId) .invalidRelationship childPath
      "must reference a node in the same source"
    addIssueIf (rangeContains node.range child.range = false) .invalidRange childPath
      "child range must be contained by its parent"
    addIssueIf (siblings.previous.any fun previous =>
        previous.range.stop.utf16Offset > child.range.start.utf16Offset)
      .invalidRange childPath "siblings must be ordered and non-overlapping"
    match (siblings.parentByChild.get? childId).filter (· ≠ node.id) with
    | some priorParent => do
      push ⟨.invalidRelationship, js "node already has parent '" ++ priorParent ++ js "'",
        childPath⟩
      return { siblings with previous := some child }
    | none =>
      return {
        previous := some child, parentByChild := siblings.parentByChild.set childId node.id }

def linkChildren (_ : Nat) (parents : Parents) (node : NodeFacts) : Validated Parents := do
  let siblings ← foldIdx (linkChild nodes node) 0 ⟨none, parents⟩ node.childIds
  return siblings.parentByChild

/-- `rootsBySource.get(sourceId) ?? []` -/
def rootsOf (sourceId : Text) : List Text :=
  (nodes.values.filter fun node => node.kind = js "root" && node.sourceId = sourceId).map (·.id)

/-- `nodes.get(id)?.childIds ?? []` -/
def childrenOf (id : Text) : List Text :=
  ((nodes.get? id).map (·.childIds)).getD []

def isNode (id : Text) : Bool := (nodes.get? id).isSome

abbrev Walk := DepthFirst.State Text

/-- More steps than a walk can take. -/
def walkFuel (nodes : Nodes) : Nat :=
  (nodes.keys.map (DepthFirst.nodeWeight (childrenOf nodes))).sum + 1

def walk (rootId : Text) (state : Walk) : Validated Walk :=
  let final := DepthFirst.run (childrenOf nodes) (isNode nodes) (walkFuel nodes)
    (DepthFirst.start rootId { state with cycles := [] })
  ⟨final, final.cycles.map fun id =>
    ⟨.invalidRelationship, js "AST must not contain a cycle", fieldPath (nodePath id) "childIds"⟩⟩

/-- `$.sources[id=…].rootNodeId` -/
def rootPath (source : SourceFacts) : Text :=
  fieldPath (js "$.sources[id=" ++ source.id ++ js "]") "rootNodeId"

def walkSource (_ : Nat) (state : Walk) (source : SourceFacts) : Validated Walk := do
  addIssueIf (rootsOf nodes source.id ≠ [source.rootNodeId]) .invalidRelationship (rootPath source)
    "must nominate the source's only root-kind AST node"
  match nodes.get? source.rootNodeId with
  | none => do
    addIssue .invalidRelationship (rootPath source) "references an unknown AST node"
    return state
  | some root => do
    addIssueIf (root.kind ≠ js "root" ∨ root.sourceId ≠ source.id) .invalidRelationship
      (rootPath source) "must reference the root node for this source"
    addIssueIf (root.range.start.utf16Offset ≠ 0 ∨
        root.range.stop.utf16Offset ≠ source.text.length)
      .invalidRange (fieldPath (nodePath root.id) "range")
      "root range must cover the exact source text"
    walk nodes root.id state

def validateAstRelationships (sources : Sources) : Validated Parents := do
  let parentByChild ← foldIdx (linkChildren nodes) 0 .empty nodes.values
  let state ← foldIdx (walkSource nodes) 0 ⟨[], [], [], []⟩ sources.values
  let _ ← mapIdx (fun _ node =>
    addIssueIf (node.id ∉ state.visited) .invalidRelationship (nodePath node.id)
      "must be reachable from its source root") 0 nodes.values
  return parentByChild

/-! ## Ownership -/

/-- `check`: the records that a document lists are its own. -/
def checkListed (document : DocumentFacts) (ids : List Text) (records : Owned)
    (path : Text) : Validated Unit := do
  let _ ← mapIdx (fun index id => do
    addIssueIf (records.get? id).isNone .invalidRelationship (itemPath path index)
      "references an unknown record"
    addIssueIf ((records.get? id).any (·.documentId ≠ document.id)) .invalidRelationship
      (itemPath path index) "references a record owned by another document") 0 ids

/-- `$.documents[id=…]` -/
def documentPath (id : Text) : Text := js "$.documents[id=" ++ id ++ js "]"

def checkDocument (imports statements activations : Owned) (_ : Nat) (document : DocumentFacts) :
    Validated Unit := do
  let path := documentPath document.id
  checkListed document document.importIds imports (fieldPath path "importIds")
  checkListed document document.statementIds statements (fieldPath path "statementIds")
  checkListed document document.activationRuleIds activations (fieldPath path "activationRuleIds")

def checkOwned (documents : Documents) (collection : String)
    (listed : DocumentFacts → List Text) (_ : Nat) (record : OwnedFacts) : Validated Unit :=
  addIssueIf ((documents.get? record.documentId).any fun document => !(listed document).contains record.id)
    .invalidRelationship
    (fieldPath (js "$." ++ js collection ++ js "[id=" ++ record.id ++ js "]") "documentId")
    "owning document does not list this record"

def validateOwnership (documents : Documents) (imports statements activations : Owned) :
    Validated Unit := do
  let _ ← mapIdx (checkDocument imports statements activations) 0 documents.values
  let _ ← mapIdx (checkOwned documents "imports" (·.importIds)) 0 imports.values
  let _ ← mapIdx (checkOwned documents "statements" (·.statementIds)) 0 statements.values
  let _ ← mapIdx (checkOwned documents "activationRules" (·.activationRuleIds)) 0 activations.values

/-! ## Bundles -/

def collectRecords (record : Fields) (key : String) : Validated (List JsValue) := do
  let values ← requiredArray record key (js "$")
  return values.getD []

/-- The round of `collectIds` for one value. -/
def collectId (path : Text) (index : Nat) (output : List Text) (value : JsValue) :
    Validated (List Text) :=
  match value with
  | .object item =>
    match (JsValue.get item (js "id")).text?.filter isStableIdentifier with
    | none => pure output
    | some id => do
      pushIf (id ∈ output)
        ⟨.duplicateId, js "duplicates '" ++ id ++ js "'", fieldPath (itemPath path index) "id"⟩
      return id :: output
  | _ => pure output

def collectIds (values : List JsValue) (path : Text) : Validated Unit := do
  let _ ← foldIdx (collectId path) 0 [] values

/-- Add the facts of a record that are not there yet. -/
def addFacts {α : Type} (id : α → Text) (map : OrderedMap Text α) (facts : Option α) :
    OrderedMap Text α :=
  match facts with
  | none => map
  | some facts => if (map.get? (id facts)).isSome then map else map.set (id facts) facts

/-- The loop over the records of a collection. -/
def collectFacts {α : Type} (collection : String) (id : α → Text)
    (validate : JsValue → Text → Validated (Option α)) (values : List JsValue) :
    Validated (OrderedMap Text α) :=
  foldIdx (fun index map value => do
    let facts ← validate value (itemPath (js "$." ++ js collection) index)
    return addFacts id map facts) 0 .empty values

/-- The state of the loop over the sources. -/
structure SourceTable where
  sources : Sources
  sourceIdsByPath : OrderedMap Text Text

def collectSource (index : Nat) (table : SourceTable) (value : JsValue) : Validated SourceTable := do
  let path := itemPath (js "$.sources") index
  match ← validateSource value path with
  | none => return table
  | some facts =>
    if (table.sources.get? facts.id).isSome then return table
    else
      match table.sourceIdsByPath.get? facts.path with
      | some priorSourceId => do
        push ⟨.duplicateId, js "duplicates canonical source path owned by '" ++ priorSourceId ++
          js "'", fieldPath path "path"⟩
        return { table with sources := table.sources.set facts.id facts }
      | none =>
        return {
          sources := table.sources.set facts.id facts
          sourceIdsByPath := table.sourceIdsByPath.set facts.path facts.id }

def instructionIrContractVersion : String := "0.1.0"

/-- The records of a bundle, behind the checks of the bundle itself. -/
structure Collections where
  sources : List JsValue
  documents : List JsValue
  nodes : List JsValue
  imports : List JsValue
  statements : List JsValue
  activationRules : List JsValue
  targets : List JsValue
  events : List JsValue

def collect (record : Fields) : Validated Collections := do
  let recordKind ← requiredString record "recordKind" (js "$")
  addIssueIf (recordKind.any (· ≠ js "agent-context-instruction-ir")) .invalidValue
    (js "$.recordKind") "must equal 'agent-context-instruction-ir'"
  let version ← requiredString record "contractVersion" (js "$")
  addIssueIf (version.any (· ≠ js instructionIrContractVersion)) .invalidValue
    (js "$.contractVersion") "must equal '0.1.0'"
  let sources ← collectRecords record "sources"
  let documents ← collectRecords record "documents"
  let nodes ← collectRecords record "nodes"
  let imports ← collectRecords record "imports"
  let statements ← collectRecords record "statements"
  let activationRules ← collectRecords record "activationRules"
  let targets ← collectRecords record "targets"
  let events ← collectRecords record "events"
  collectIds sources (js "$.sources")
  collectIds documents (js "$.documents")
  collectIds nodes (js "$.nodes")
  collectIds imports (js "$.imports")
  collectIds statements (js "$.statements")
  collectIds activationRules (js "$.activationRules")
  collectIds targets (js "$.targets")
  collectIds events (js "$.events")
  return { sources, documents, nodes, imports, statements, activationRules, targets, events }

/-- The checks of the records of a bundle. -/
def validateCollections (values : Collections) : Validated Unit := do
  let table ← foldIdx collectSource 0 ⟨.empty, .empty⟩ values.sources
  let sources := table.sources
  let nodes ← collectFacts "nodes" (·.id) (validateNode · · sources) values.nodes
  let nodeParents ← validateAstRelationships nodes sources
  let documents ← collectFacts "documents" (·.id) (validateDocument · · sources nodes)
    values.documents
  let imports ← collectFacts "imports" (·.id) (validateImport · · documents nodes sources)
    values.imports
  let statements ← collectFacts "statements" (·.id)
    (validateStatement · · documents nodes nodeParents sources) values.statements
  let activations ← collectFacts "activationRules" (·.id) (validateActivation · · documents sources)
    values.activationRules
  validateOwnership documents imports statements activations
  let targets ← collectFacts "targets" id validateTarget values.targets
  let _ ← mapIdx (validateEvent activations targets) 0 values.events

def validateInstructionIrValue (input : JsValue) : Validated Unit :=
  match jsonIssues (js "$") 0 input with
  | [] => do
    let some record ← objectValue input (js "$")
      ["recordKind", "contractVersion", "sources", "documents", "nodes", "imports", "statements",
        "activationRules", "targets", "events"] | return ()
    let values ← collect record
    validateCollections values
  | issues => ⟨(), issues⟩

def validateInstructionIr (input : JsValue) : Except (List InstructionIrValidationIssue) JsValue :=
  let result := validateInstructionIrValue input
  if result.issues = [] then .ok input else .error (bounded result.issues)

end AgentContextLint.IrValidation
