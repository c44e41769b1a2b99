import AgentContextLint.Core.IrValidation

/-!
# Validation of the records of instruction IR

Model of the validators for the records of a bundle in `packages/core/src/ir-validation.ts`, and of
`validateUncertaintyValue` in `contract-validation.ts`. Each returns what later checks need of its
record.
-/

namespace AgentContextLint.IrValidation

open Utf16 Checked
open RepositoryPath (isRepositoryRelativePath repositoryRoot)
open JsValue (get)

/-! ## More readers -/

/-- A field that must be there, read by a validator. -/
def requiredValue {α : Type} (validate : JsValue → Text → Validated (Option α)) (record : Fields)
    (key : String) (path : Text) : Validated (Option α) :=
  let value := get record (js key)
  if value.isUndefined then ⟨none, [⟨.missingField, js "is required", fieldPath path key⟩]⟩
  else validate value (fieldPath path key)

/-- The loop of `identifierArray`. -/
def identifierItems (path : Text) : (index : Nat) → (seen : List Text) → List JsValue →
    Validated (List Text)
  | _, _, [] => pure []
  | index, seen, value :: rest =>
    match value.text?.filter isStableIdentifier with
    | none => do
      addIssue .invalidValue (itemPath path index) "must be a stable identifier"
      identifierItems path (index + 1) seen rest
    | some id => do
      pushIf (id ∈ seen) ⟨.duplicateId, js "duplicates '" ++ id ++ js "'", itemPath path index⟩
      let ids ← identifierItems path (index + 1) (id :: seen) rest
      return id :: ids

variable (record : Fields) (key : String)

/-- An absent array reads as an empty one, as every caller has it. -/
def identifierArray (path : Text) (minimum : Nat) : Validated (List Text) := do
  let values ← requiredArray record key path
  match values with
  | none => return []
  | some values => do
    pushIf (values.length < minimum) ⟨.invalidValue,
      js "must contain at least " ++ Netstring.decimalText minimum ++ js " item(s)",
      fieldPath path key⟩
    identifierItems (fieldPath path key) 0 [] values

/-- A field that is null or read by `read`, and that is there. -/
def nullableField {α : Type} (read : JsValue → Option α) (message : String) (record : Fields)
    (key : String) (path : Text) : Validated (Option (Option α)) :=
  match get record (js key) with
  | .undefined => ⟨none, [⟨.missingField, js "is required and must be explicit when absent",
      fieldPath path key⟩]⟩
  | .null => pure (some none)
  | value =>
    match read value with
    | some a => pure (some (some a))
    | none => ⟨none, [⟨.invalidValue, js message, fieldPath path key⟩]⟩

def nullableIdentifier (path : Text) : Validated (Option (Option Text)) :=
  nullableField (fun value => value.text?.filter isStableIdentifier)
    "must be null or a stable identifier" record key path

def nullableString (path : Text) : Validated (Option (Option Text)) :=
  nullableField nonEmptyText? "must be null or a non-empty string" record key path

/-! ## Uncertainty -/

inductive UncertaintyState
  | known
  | conditional
  | unknown
  | contradiction
  deriving DecidableEq

def UncertaintyState.ofText (text : Text) : Option UncertaintyState :=
  if text = js "known" then some .known
  else if text = js "conditional" then some .conditional
  else if text = js "unknown" then some .unknown
  else if text = js "contradiction" then some .contradiction
  else none

variable (value : JsValue) (path : Text)

/-- `objectValue` of `contract-validation.ts` -/
def contractObject (keys : List String) : Validated (Option Fields) :=
  match value with
  | .object fields =>
    ⟨some fields, ((JsValue.keys fields).filter fun key => !(keys.map js).contains key).map
      fun key => ⟨.unknownField, js "is not part of the contract", path ++ js "." ++ key⟩⟩
  | _ => ⟨none, [⟨.invalidValue, js "must be an object", path⟩]⟩

def contractText? (value : JsValue) : Option Text :=
  value.text?.filter fun text => text ≠ [] && wellFormed text

/-- `requiredString` of `contract-validation.ts` without a bound -/
def contractString (path : Text) : Validated (Option Text) :=
  requiredField contractText? "must be non-empty well-formed Unicode" record key path

def forbidFields (names : List String) (message : String) : Validated Unit :=
  ⟨(), (names.filter fun name => !(get record (js name)).isUndefined).map fun name =>
    ⟨.invalidValue, js message, fieldPath path name⟩⟩

def validateConditionItems (path : Text) : (index : Nat) → (seen : List Text) →
    List JsValue → Validated Unit
  | _, _, [] => pure ()
  | index, seen, value :: rest =>
    match contractText? value with
    | none => do
      addIssue .invalidValue (itemPath path index) "must be non-empty well-formed Unicode"
      validateConditionItems path (index + 1) seen rest
    | some condition => do
      addIssueIf (condition ∈ seen) .duplicateId (itemPath path index)
        "duplicates an uncertainty condition"
      validateConditionItems path (index + 1) (condition :: seen) rest

def validateConditions (path : Text) : Validated Unit :=
  match value with
  | .array items => do
    addIssueIf (items = []) .invalidValue path "must contain at least one condition"
    validateConditionItems path 0 [] items
  | _ => addIssue .invalidValue path "must be an array"

def validateAlternativeItems (path : Text) : (index : Nat) → (ids : List Text) →
    List JsValue → Validated Unit
  | _, _, [] => pure ()
  | index, ids, value :: rest => do
    match ← contractObject value (itemPath path index) ["id", "description"] with
    | none => validateAlternativeItems path (index + 1) ids rest
    | some alternative =>
      let id ← contractString alternative "id" (itemPath path index)
      let _ ← contractString alternative "description" (itemPath path index)
      match id with
      | none => validateAlternativeItems path (index + 1) ids rest
      | some id => do
        addIssueIf (isStableIdentifier id = false) .invalidValue
          (fieldPath (itemPath path index) "id") "must be a stable identifier"
        pushIf (isStableIdentifier id = true ∧ id ∈ ids)
          ⟨.duplicateId, js "contains duplicate alternative '" ++ id ++ js "'", path⟩
        validateAlternativeItems path (index + 1) (id :: ids) rest

def validateAlternatives (path : Text) : Validated Unit :=
  match value with
  | .array items => do
    addIssueIf (items.length < 2) .invalidValue path "must contain at least two alternatives"
    validateAlternativeItems path 0 [] items
  | _ => addIssue .invalidValue path "must be an array"

def requiredChecked (validate : JsValue → Text → Validated Unit) (record : Fields)
    (key : String) (path : Text) : Validated Unit :=
  let value := get record (js key)
  if value.isUndefined then addIssue .missingField (fieldPath path key) "is required"
  else validate value (fieldPath path key)

def validateUncertaintyValue (path : Text) : Validated (Option UncertaintyState) := do
  let some record ← contractObject value path ["state", "conditions", "reason", "alternatives"]
    | return none
  let some state ← contractString record "state" path | return none
  match UncertaintyState.ofText state with
  | none => ⟨none, [⟨.invalidState, js "has unsupported state '" ++ state ++ js "'",
      fieldPath path "state"⟩]⟩
  | some .known => do
    forbidFields record path ["conditions", "reason", "alternatives"]
      "is not allowed for known uncertainty"
    return some .known
  | some .conditional => do
    requiredChecked validateConditions record "conditions" path
    forbidFields record path ["reason", "alternatives"]
      "is not allowed for conditional uncertainty"
    return some .conditional
  | some .unknown => do
    let _ ← contractString record "reason" path
    forbidFields record path ["conditions", "alternatives"]
      "is not allowed for unknown uncertainty"
    return some .unknown
  | some .contradiction => do
    let _ ← contractString record "reason" path
    requiredChecked validateAlternatives record "alternatives" path
    forbidFields record path ["conditions"] "is not allowed for contradiction uncertainty"
    return some .contradiction

/-! ## Nodes -/

structure NodeFacts where
  id : Text
  sourceId : Text
  kind : Text
  range : SourceRange
  childIds : List Text

abbrev Nodes := OrderedMap Text NodeFacts

def astNodeKinds : List String :=
  ["root", "heading", "paragraph", "list", "list-item", "block-quote", "code-block", "inline-code",
    "link", "html-comment", "frontmatter", "text", "unknown"]

/-- The fields that nodes of a kind have besides the common ones. -/
def nodeExtraKeys (kind : JsValue) : List String :=
  match kind.text? with
  | none => []
  | some kind =>
    if kind = js "heading" then ["depth"]
    else if kind = js "list" then ["ordered", "start"]
    else if kind = js "code-block" then ["language", "metadata"]
    else if kind = js "link" then ["destination", "title"]
    else if kind = js "frontmatter" then ["format"]
    else if kind = js "unknown" then ["syntaxKind", "reason"]
    else []

/-- `null` or a positive safe integer -/
def isListStart : JsValue → Bool
  | .null => true
  | value => (safeNat? value).any (1 ≤ ·)

def isNull : JsValue → Bool
  | .null => true
  | _ => false

def validateListNode (path : Text) : Validated Unit := do
  let ordered ← requiredBoolean record "ordered" path
  let start := get record (js "start")
  addIssueIf start.isUndefined .missingField (fieldPath path "start")
    "is required and must be explicit"
  addIssueIf (start.isUndefined = false ∧ isListStart start = false) .invalidValue
    (fieldPath path "start") "must be null or a positive safe integer"
  addIssueIf (ordered = some false ∧ isNull start = false) .invalidState (fieldPath path "start")
    "must be null for an unordered list"
  addIssueIf (ordered = some true ∧ isNull start = true) .invalidState (fieldPath path "start")
    "must be present for an ordered list"

/-- The checks of the fields that nodes of a kind have. -/
def validateNodeKind (path kind : Text) : Validated Unit :=
  if kind = js "heading" then do
    let depth ← requiredInteger record "depth" path
    addIssueIf (depth.any fun depth => depth < 1 || depth > 6) .invalidValue (fieldPath path "depth")
      "must be between 1 and 6"
  else if kind = js "list" then validateListNode record path
  else if kind = js "code-block" then do
    let _ ← nullableString record "language" path
    let _ ← nullableString record "metadata" path
  else if kind = js "link" then do
    let _ ← requiredText record "destination" path
    let _ ← nullableString record "title" path
  else if kind = js "frontmatter" then do
    let _ ← enumString record "format" path ["yaml", "mdc"]
  else if kind = js "unknown" then do
    let _ ← requiredString record "syntaxKind" path
    let _ ← requiredString record "reason" path
  else pure ()

def validateNode (sources : Sources) : Validated (Option NodeFacts) := do
  let .object raw := value | ⟨none, [⟨.invalidValue, js "must be an object", path⟩]⟩
  let some record ← objectValue value path
    (["id", "sourceId", "kind", "range", "childIds"] ++ nodeExtraKeys (get raw (js "kind")))
    | return none
  let id ← requiredIdentifier record "id" path
  let sourceId ← requiredIdentifier record "sourceId" path
  let kind ← enumString record "kind" path astNodeKinds
  let range ← requiredValue (validateRange · · sources) record "range" path
  let childIds ← identifierArray record "childIds" path 0
  addIssueIf (range.any fun range => sourceId.any (range.sourceId ≠ ·)) .invalidRelationship
    (fieldPath (fieldPath path "range") "sourceId")
    "must equal the node sourceId"
  kind.forM (validateNodeKind record path)
  match id, sourceId, kind, range with
  | some id, some sourceId, some kind, some range =>
    return some { id, sourceId, kind, range, childIds }
  | _, _, _, _ => return none

abbrev Parents := OrderedMap Text Text

def rangeContains (outer inner : SourceRange) : Bool :=
  outer.sourceId = inner.sourceId && outer.start.utf16Offset ≤ inner.start.utf16Offset &&
    outer.stop.utf16Offset ≥ inner.stop.utf16Offset

/-! ## Documents -/

structure DocumentFacts where
  id : Text
  sourceId : Text
  rootNodeId : Text
  importIds : List Text
  statementIds : List Text
  activationRuleIds : List Text

abbrev Documents := OrderedMap Text DocumentFacts

/-- A reference that is there, to something that is not. -/
def addUnknown {α : Type} (id : Option Text) (target : Option α) (path : Text)
    (message : String) : Validated Unit :=
  addIssueIf (id.isSome ∧ target.isNone) .invalidRelationship path message

def validateDocument (sources : Sources) (nodes : Nodes) : Validated (Option DocumentFacts) := do
  let some record ← objectValue value path
    ["id", "sourceId", "formatId", "scopeRoot", "rootNodeId", "importIds", "statementIds",
      "activationRuleIds"] | return none
  let id ← requiredIdentifier record "id" path
  let sourceId ← requiredIdentifier record "sourceId" path
  let _ ← requiredIdentifier record "formatId" path
  let scopeRoot ← requiredString record "scopeRoot" path
  addIssueIf (scopeRoot.any fun scopeRoot => !isRepositoryRelativePath scopeRoot) .invalidPath
    (fieldPath path "scopeRoot") "must be a canonical repository-relative path"
  let rootNodeId ← requiredIdentifier record "rootNodeId" path
  let importIds ← identifierArray record "importIds" path 0
  let statementIds ← identifierArray record "statementIds" path 0
  let activationRuleIds ← identifierArray record "activationRuleIds" path 0
  let source := sourceId.bind sources.get?
  addUnknown sourceId source (fieldPath path "sourceId") "references an unknown source"
  addUnknown rootNodeId (rootNodeId.bind nodes.get?) (fieldPath path "rootNodeId")
    "references an unknown AST node"
  addIssueIf (source.any fun source => rootNodeId ≠ some source.rootNodeId) .invalidRelationship
    (fieldPath path "rootNodeId") "must equal the source root node"
  match id, sourceId, rootNodeId with
  | some id, some sourceId, some rootNodeId =>
    return some { id, sourceId, rootNodeId, importIds, statementIds, activationRuleIds }
  | _, _, _ => return none

/-! ## Imports -/

/-- What is kept of an import, a statement and an activation rule. -/
structure OwnedFacts where
  id : Text
  documentId : Text

abbrev Owned := OrderedMap Text OwnedFacts

def ownedFacts (id documentId : Option Text) : Option OwnedFacts :=
  match id, documentId with
  | some id, some documentId => some { id, documentId }
  | _, _ => none

def sourceSlice (sources : Sources) (range : SourceRange) : Option Text :=
  (sources.get? range.sourceId).map fun source =>
    (source.text.drop range.start.utf16Offset).take
      (range.stop.utf16Offset - range.start.utf16Offset)

def importKinds : List String := ["vendor-import", "markdown-link", "reference-token"]

def importTargetKinds : List String :=
  ["repository-path-candidate", "absolute-path-candidate", "url", "fragment", "malformed", "unknown"]

def importStates : List String := ["recognized", "malformed", "ambiguous"]

variable (documents : Documents)

def validateImport (nodes : Nodes) (sources : Sources) : Validated (Option OwnedFacts) := do
  let some record ← objectValue value path
    ["id", "documentId", "nodeId", "kind", "range", "specifierRange", "rawSpecifier", "targetKind",
      "state", "uncertainty"] | return none
  let id ← requiredIdentifier record "id" path
  let documentId ← requiredIdentifier record "documentId" path
  let nodeId ← requiredIdentifier record "nodeId" path
  let _ ← enumString record "kind" path importKinds
  let range ← requiredValue (validateRange · · sources) record "range" path
  let specifierRange ← requiredValue (validateRange · · sources) record "specifierRange" path
  let rawSpecifier ← requiredText record "rawSpecifier" path
  let targetKind ← enumString record "targetKind" path importTargetKinds
  let state ← enumString record "state" path importStates
  let uncertainty ← requiredValue validateUncertaintyValue record "uncertainty" path
  let document := documentId.bind documents.get?
  addUnknown documentId document (fieldPath path "documentId")
    "references an unknown instruction document"
  let node := nodeId.bind nodes.get?
  addUnknown nodeId node (fieldPath path "nodeId") "references an unknown AST node"
  addIssueIf (range.any fun range => specifierRange.any (!rangeContains range ·)) .invalidRange
    (fieldPath path "specifierRange") "must be contained by the import token range"
  addIssueIf (node.any fun node => range.any (!rangeContains node.range ·)) .invalidRange
    (fieldPath path "range") "must be contained by the referenced AST node"
  addIssueIf (document.any fun document => range.any (·.sourceId ≠ document.sourceId))
    .invalidRelationship (fieldPath (fieldPath path "range") "sourceId")
    "must belong to the document source"
  addIssueIf ((specifierRange.bind (sourceSlice sources)).any fun slice =>
      rawSpecifier.any (slice ≠ ·))
    .invalidRange (fieldPath path "rawSpecifier") "must equal the exact specifier source slice"
  addIssueIf (state ≠ some (js "malformed") ∧ rawSpecifier = some []) .invalidState
    (fieldPath path "rawSpecifier") "may be empty only for a malformed import"
  addIssueIf ((state = some (js "ambiguous") ∨ targetKind = some (js "unknown")) ∧
      uncertainty = some .known)
    .invalidState (fieldPath (fieldPath path "uncertainty") "state")
    "ambiguous or unknown imports cannot be marked known"
  return ownedFacts id documentId

/-! ## Statements -/

def isUnitNumber : JsValue → Bool
  | .number (.integer n) => 0 ≤ n && n ≤ 1
  | .number .negativeZero => true
  | .number (.fractional floor) => floor = 0
  | _ => false

def classificationKeys (value : JsValue) : List String :=
  match value with
  | .object fields =>
    if (get fields (js "state")).text? = some (js "classified") then
      ["state", "normalizedText", "categoryId", "modality", "subject", "action", "object",
        "confidence"]
    else ["state"]
  | _ => ["state"]

def validateClassified (classification : Fields) (path : Text) : Validated Unit := do
  let _ ← requiredString classification "normalizedText" path
  let _ ← requiredIdentifier classification "categoryId" path
  let _ ← enumString classification "modality" path
    ["must", "must-not", "should", "preference", "information"]
  let _ ← nullableString classification "subject" path
  let _ ← nullableString classification "action" path
  let _ ← nullableString classification "object" path
  addIssueIf (isUnitNumber (get classification (js "confidence")) = false) .invalidValue
    (fieldPath path "confidence") "must be a finite number between 0 and 1"

def validateClassification (path : Text) : Validated Unit := do
  let some classification ← objectValue value path (classificationKeys value) | return ()
  let state ← enumString classification "state" path ["unclassified", "classified"]
  if state = some (js "classified") then validateClassified classification path

/-- The state of the loop over the nodes of a statement. -/
structure Contributing where
  previous : Option NodeFacts
  parent : Option Text

def validateContributing (range : Option SourceRange) (nodes : Nodes) (nodeParents : Parents)
    (index : Nat) (state : Contributing) (nodeId : Text) : Validated Contributing :=
  let nodePath := itemPath (fieldPath path "nodeIds") index
  match nodes.get? nodeId with
  | none => do
    addIssue .invalidRelationship nodePath "references an unknown AST node"
    return state
  | some node => do
    addIssueIf (range.any (!rangeContains · node.range)) .invalidRange nodePath
      "contributing node must be inside the statement range"
    let parent := nodeParents.get? nodeId
    addIssueIf (index ≠ 0 ∧ (parent = none ∨ parent ≠ state.parent)) .invalidRelationship nodePath
      "contributing nodes must be siblings with the same parent"
    addIssueIf (state.previous.any fun previous =>
        previous.range.stop.utf16Offset > node.range.start.utf16Offset)
      .invalidRange nodePath "contributing nodes must be ordered and non-overlapping"
    return { previous := some node, parent := if index = 0 then parent else state.parent }

def validateStatement (nodes : Nodes) (nodeParents : Parents) (sources : Sources) :
    Validated (Option OwnedFacts) := do
  let some record ← objectValue value path
    ["id", "documentId", "nodeIds", "range", "text", "classification"] | return none
  let id ← requiredIdentifier record "id" path
  let documentId ← requiredIdentifier record "documentId" path
  let nodeIds ← identifierArray record "nodeIds" path 1
  let range ← requiredValue (validateRange · · sources) record "range" path
  let text ← requiredText record "text" path
  requiredChecked validateClassification record "classification" path
  let document := documentId.bind documents.get?
  addUnknown documentId document (fieldPath path "documentId")
    "references an unknown instruction document"
  addIssueIf (document.any fun document => range.any (·.sourceId ≠ document.sourceId))
    .invalidRelationship (fieldPath (fieldPath path "range") "sourceId")
    "must belong to the document source"
  let _ ← foldIdx (validateContributing path range nodes nodeParents) 0 ⟨none, none⟩ nodeIds
  addIssueIf ((range.bind (sourceSlice sources)).any fun slice => text.any (slice ≠ ·)) .invalidRange
    (fieldPath path "text") "must equal the exact statement source slice"
  return ownedFacts id documentId

/-! ## Activation rules -/

def validateSelectorKind (kind : Option Text) : Validated Unit :=
  if kind = some (js "directory-tree") then do
    let selectorPath ← requiredString record "path" path
    addIssueIf (selectorPath.any fun p => !isRepositoryRelativePath p) .invalidPath
      (fieldPath path "path") "must be a canonical repository-relative path"
  else if kind = some (js "glob") then do
    let _ ← requiredString record "pattern" path
    let dialectId ← nullableIdentifier record "dialectId" path
    let state ← requiredValue validateUncertaintyValue record "uncertainty" path
    addIssueIf (dialectId = some none ∧ state = some .known) .invalidState
      (fieldPath (fieldPath path "uncertainty") "state")
      "a missing glob dialect cannot be marked known"
  else pure ()

def validateSelectorRange (document : Option DocumentFacts) (sources : Sources) : Validated Unit :=
  match get record (js "sourceRange") with
  | .undefined => addIssue .missingField (fieldPath path "sourceRange")
      "is required and must be explicit"
  | .null => pure ()
  | value => do
    let range ← validateRange value (fieldPath path "sourceRange") sources
    addIssueIf (document.any fun document => range.any (·.sourceId ≠ document.sourceId))
      .invalidRelationship (fieldPath (fieldPath path "sourceRange") "sourceId")
      "must belong to the activation document"

def selectorKeys (kind : JsValue) : List String :=
  if kind.text? = some (js "directory-tree") then ["kind", "path", "sourceRange"]
  else ["kind", "pattern", "dialectId", "sourceRange", "uncertainty"]

def validateSelector (document : Option DocumentFacts) (sources : Sources) (path : Text)
    (value : JsValue) : Validated (Option Text) := do
  let .object raw := value | ⟨none, [⟨.invalidValue, js "must be an object", path⟩]⟩
  let some record ← objectValue value path (selectorKeys (get raw (js "kind")))
    | return none
  let kind ← enumString record "kind" path ["directory-tree", "glob"]
  validateSelectorKind record path kind
  validateSelectorRange record path document sources
  return kind

def validateActivationConditions (path : Text) : (index : Nat) → (seen : List Text) →
    List JsValue → Validated Unit
  | _, _, [] => pure ()
  | index, seen, value :: rest =>
    match nonEmptyText? value with
    | none => do
      addIssue .invalidValue (itemPath path index) "must be a non-empty string"
      validateActivationConditions path (index + 1) seen rest
    | some condition => do
      addIssueIf (condition ∈ seen) .duplicateId (itemPath path index)
        "duplicates an activation condition"
      validateActivationConditions path (index + 1) (condition :: seen) rest

def validateEvidenceRefs (path : Text) : (index : Nat) →
    (pairs : List (Text × Option Text)) → List JsValue → Validated Unit
  | _, _, [] => pure ()
  | index, pairs, value :: rest => do
    match ← objectValue value (itemPath path index) ["sourceId", "factId"] with
    | none => validateEvidenceRefs path (index + 1) pairs rest
    | some item =>
      let sourceId ← requiredIdentifier item "sourceId" (itemPath path index)
      let factId ← nullableIdentifier item "factId" (itemPath path index)
      match sourceId, factId with
      | some sourceId, some factId => do
        -- identifiers have no NUL and are not empty: the key of the source is the pair
        addIssueIf ((sourceId, factId) ∈ pairs) .duplicateId (itemPath path index)
          "duplicates an evidence reference"
        validateEvidenceRefs path (index + 1) ((sourceId, factId) :: pairs) rest
      | _, _ => validateEvidenceRefs path (index + 1) pairs rest

def activationKinds : List String :=
  ["always", "directory-tree", "glob", "manual", "conditional", "unknown"]

/-- What the kind of an activation rule asks of its other fields. -/
def validateActivationKind (kind : Option Text) (includeKinds : List (Option Text))
    (conditions : List JsValue) (unknownReason : Option (Option Text))
    (uncertainty : Option UncertaintyState) : Validated Unit := do
  addIssueIf (kind = some (js "always") ∧ conditions ≠ []) .invalidState
    (fieldPath path "conditions") "always activation cannot declare conditions"
  addIssueIf (kind = some (js "directory-tree") ∧ some (js "directory-tree") ∉ includeKinds)
    .invalidState (fieldPath path "include")
    "directory-tree activation requires a directory selector"
  addIssueIf (kind = some (js "glob") ∧ some (js "glob") ∉ includeKinds) .invalidState
    (fieldPath path "include") "glob activation requires a glob selector"
  addIssueIf (kind = some (js "conditional") ∧ conditions = []) .invalidState
    (fieldPath path "conditions") "conditional activation requires at least one condition"
  addIssueIf (kind = some (js "unknown") ∧ unknownReason = some none) .invalidState
    (fieldPath path "unknownReason") "unknown activation requires a reason"
  addIssueIf (kind = some (js "unknown") ∧ uncertainty = some .known) .invalidState
    (fieldPath (fieldPath path "uncertainty") "state")
    "unknown activation cannot be marked known"
  addIssueIf (kind ≠ some (js "unknown") ∧ (unknownReason.join).isSome) .invalidState
    (fieldPath path "unknownReason") "is only allowed for unknown activation"

def validateActivation (sources : Sources) : Validated (Option OwnedFacts) := do
  let some record ← objectValue value path
    ["id", "documentId", "profileId", "surfaceId", "specSnapshotId", "kind", "scopeRoot", "include",
      "exclude", "conditions", "unknownReason", "evidenceRefs", "uncertainty"] | return none
  let id ← requiredIdentifier record "id" path
  let documentId ← requiredIdentifier record "documentId" path
  let _ ← requiredIdentifier record "profileId" path
  let _ ← requiredIdentifier record "surfaceId" path
  let _ ← requiredIdentifier record "specSnapshotId" path
  let kind ← enumString record "kind" path activationKinds
  let scopeRoot ← requiredString record "scopeRoot" path
  addIssueIf (scopeRoot.any fun scopeRoot => !isRepositoryRelativePath scopeRoot) .invalidPath
    (fieldPath path "scopeRoot") "must be a canonical repository-relative path"
  let document := documentId.bind documents.get?
  addUnknown documentId document (fieldPath path "documentId")
    "references an unknown instruction document"
  let included ← requiredArray record "include" path
  let excluded ← requiredArray record "exclude" path
  let includeKinds ← mapIdx (fun index selector =>
    validateSelector document sources (itemPath (fieldPath path "include") index) selector) 0
    (included.getD [])
  let _ ← mapIdx (fun index selector =>
    validateSelector document sources (itemPath (fieldPath path "exclude") index) selector) 0
    (excluded.getD [])
  let conditions ← requiredArray record "conditions" path
  validateActivationConditions (fieldPath path "conditions") 0 [] (conditions.getD [])
  let unknownReason ← nullableString record "unknownReason" path
  let evidence ← requiredArray record "evidenceRefs" path
  addIssueIf (evidence.getD [] = []) .invalidValue (fieldPath path "evidenceRefs")
    "must contain at least one evidence reference"
  validateEvidenceRefs (fieldPath path "evidenceRefs") 0 [] (evidence.getD [])
  let uncertainty ← requiredValue validateUncertaintyValue record "uncertainty" path
  validateActivationKind path kind includeKinds (conditions.getD []) unknownReason uncertainty
  return ownedFacts id documentId

/-! ## Targets -/

def validateTarget (path : Text) : Validated (Option Text) := do
  let some record ← objectValue value path ["id", "path", "purpose"] | return none
  let id ← requiredIdentifier record "id" path
  let targetPath ← requiredString record "path" path
  addIssueIf (targetPath.any fun p => !isRepositoryRelativePath p || p == repositoryRoot)
    .invalidPath (fieldPath path "path") "must be a canonical repository-relative file path"
  let _ ← requiredString record "purpose" path
  return id

/-! ## Events -/

def hasControl (value : Text) : Bool := value.any fun u => u ≤ 0x1f || u = 0x7f

def validateSettingItems (path : Text) : (index : Nat) → (settingKeys : List Text) →
    List JsValue → Validated Unit
  | _, _, [] => pure ()
  | index, settingKeys, value :: rest => do
    let settingPath := itemPath path index
    match ← objectValue value settingPath ["key", "value"] with
    | none => validateSettingItems path (index + 1) settingKeys rest
    | some setting =>
      let key ← requiredString setting "key" settingPath
      addIssueIf (key.any hasControl) .invalidValue (fieldPath settingPath "key")
        "must not contain control characters"
      key.forM fun key => pushIf (key ∈ settingKeys)
        ⟨.duplicateId, js "duplicates '" ++ key ++ js "'", fieldPath settingPath "key"⟩
      requiredChecked (fun value path => ⟨(), jsonIssues path 0 value⟩) setting "value" settingPath
      validateSettingItems path (index + 1) (key.toList ++ settingKeys) rest

def validateSettings (path : Text) : Validated (List JsValue) :=
  match value with
  | .array items => do
    validateSettingItems path 0 [] items
    return items
  | .undefined => ⟨[], [⟨.missingField, js "is required", path⟩]⟩
  | _ => ⟨[], [⟨.invalidValue, js "must be an array", path⟩]⟩

def validateWorkspaceRoots (path : Text) : (index : Nat) → (seen : List Text) →
    List JsValue → Validated Unit
  | _, _, [] => pure ()
  | index, seen, value :: rest =>
    match value.text?.filter isRepositoryRelativePath with
    | none => do
      addIssue .invalidPath (itemPath path index) "must be a canonical repository-relative path"
      validateWorkspaceRoots path (index + 1) seen rest
    | some root => do
      pushIf (root ∈ seen)
        ⟨.duplicateId, js "duplicates '" ++ root ++ js "'", itemPath path index⟩
      validateWorkspaceRoots path (index + 1) (root :: seen) rest

def resolutionEventKinds : List String :=
  ["launch", "reference-path", "read-path", "write-path", "list-directory", "manual-rule-mention",
    "rule-selection", "memory-show", "memory-list", "memory-reload", "compact", "directory-add",
    "review-request", "review-push", "hosted-task-start", "settings-change", "client-restart"]

def pathEventKinds : List String :=
  ["reference-path", "read-path", "write-path", "list-directory", "directory-add"]

/-- The fields that events of a kind have besides the common ones. -/
def eventKindKeys (kind : JsValue) : List String :=
  match kind.text? with
  | none => []
  | some kind =>
    if kind = js "launch" then ["path", "workspaceRoots", "settings"]
    else if (pathEventKinds.map js).contains kind then ["path"]
    else if kind = js "manual-rule-mention" then ["ruleId"]
    else if kind = js "rule-selection" then ["ruleIds", "selectionSource"]
    else if kind = js "settings-change" then ["settings"]
    else []

def validateEventKind (path kind : Text) (activationRules : Owned) : Validated Unit :=
  if kind = js "launch" then do
    let workspaceRoots ← requiredArray record "workspaceRoots" path
    addIssueIf (workspaceRoots.getD [] = []) .invalidValue (fieldPath path "workspaceRoots")
      "must contain at least one root"
    validateWorkspaceRoots (fieldPath path "workspaceRoots") 0 [] (workspaceRoots.getD [])
    let _ ← validateSettings (get record (js "settings")) (fieldPath path "settings")
  else if kind = js "manual-rule-mention" then do
    let ruleId ← requiredIdentifier record "ruleId" path
    addUnknown ruleId (ruleId.bind activationRules.get?) (fieldPath path "ruleId")
      "references an unknown activation rule"
  else if kind = js "rule-selection" then do
    let ruleIds ← identifierArray record "ruleIds" path 1
    let _ ← mapIdx (fun index ruleId =>
      addIssueIf (activationRules.get? ruleId).isNone .invalidRelationship
        (itemPath (fieldPath path "ruleIds") index) "references an unknown activation rule") 0 ruleIds
    let _ ← enumString record "selectionSource" path ["profile", "model", "user", "unknown"]
  else if kind = js "settings-change" then do
    let settings ← validateSettings (get record (js "settings")) (fieldPath path "settings")
    addIssueIf (settings = []) .invalidState (fieldPath path "settings")
      "settings-change requires at least one setting"
  else pure ()

def validateEvent (activationRules : Owned) (targets : OrderedMap Text Text)
    (expectedSequence : Nat) (value : JsValue) : Validated Unit := do
  let path := itemPath (js "$.events") expectedSequence
  let .object raw := value | addIssue .invalidValue path "must be an object"
  let some record ← objectValue value path
    (["id", "sequence", "kind", "targetId", "uncertainty"] ++
      eventKindKeys (get raw (js "kind"))) | return ()
  let _ ← requiredIdentifier record "id" path
  let sequence ← requiredInteger record "sequence" path
  addIssueIf (sequence.any (· ≠ expectedSequence)) .invalidState (fieldPath path "sequence")
    "must equal its zero-based array position"
  let kind ← enumString record "kind" path resolutionEventKinds
  let targetId ← nullableIdentifier record "targetId" path
  addUnknown targetId.join (targetId.join.bind targets.get?) (fieldPath path "targetId")
    "references an unknown resolution target"
  let _ ← requiredValue validateUncertaintyValue record "uncertainty" path
  if kind.any fun kind => kind = js "launch" || (pathEventKinds.map js).contains kind then
    let eventPath ← requiredString record "path" path
    addIssueIf (eventPath.any (!isRepositoryRelativePath ·)) .invalidPath (fieldPath path "path")
      "must be a canonical repository-relative path"
  kind.forM (validateEventKind record path · activationRules)

end AgentContextLint.IrValidation
