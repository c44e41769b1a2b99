import AgentContextLint.Core.InstructionIrRecords

/-!
# Instruction IR

What a bundle of instruction IR is to those who use it: the contracts of
`packages/core/src/ir-contracts.ts` as far as sources, nodes and the records of documents go, read
from a value (`InstructionIr.ofValue`), and what makes a bundle sound (`InstructionIr.Sound`): its
nodes are a tree for each source, its ranges are true, its texts are quotes, and its records belong
to the documents that list them.
-/

namespace AgentContextLint

open Utf16 IrValidation
open SourceCoordinates (TrueRange)
open JsValue (get text?)

structure IrSource where
  id : Text
  path : Text
  text : Text
  rootNodeId : Text

structure IrImport where
  id : Text
  documentId : Text
  range : SourceRange
  specifierRange : SourceRange
  rawSpecifier : Text

structure IrStatement where
  id : Text
  documentId : Text
  range : SourceRange
  text : Text

/-- The ranges are the ones of its selectors. -/
structure IrActivationRule where
  id : Text
  documentId : Text
  ranges : List SourceRange

structure InstructionIr where
  sources : List IrSource
  nodes : List NodeFacts
  documents : List DocumentFacts
  imports : List IrImport
  statements : List IrStatement
  activationRules : List IrActivationRule

namespace InstructionIr

/-! ## Reading -/

def readFields {α : Type} (read : Fields → Option α) : JsValue → Option α
  | .object fields => read fields
  | _ => none

def readList {α : Type} (read : JsValue → Option α) : JsValue → Option (List α)
  | .array items => items.mapM read
  | _ => none

def readPosition : JsValue → Option SourcePosition :=
  readFields fun fields => do
    let byteOffset ← safeNat? (get fields (js "byteOffset"))
    let utf16Offset ← safeNat? (get fields (js "utf16Offset"))
    let line ← safeNat? (get fields (js "line"))
    let utf16Column ← safeNat? (get fields (js "utf16Column"))
    return { byteOffset, utf16Offset, line, utf16Column }

def readRange : JsValue → Option SourceRange :=
  readFields fun fields => do
    let sourceId ← (get fields (js "sourceId")).text?
    let start ← readPosition (get fields (js "start"))
    let stop ← readPosition (get fields (js "end"))
    return { sourceId, start, stop }

def readSource : JsValue → Option IrSource :=
  readFields fun fields => do
    let id ← (get fields (js "id")).text?
    let path ← (get fields (js "path")).text?
    let text ← (get fields (js "text")).text?
    let rootNodeId ← (get fields (js "rootNodeId")).text?
    return { id, path, text, rootNodeId }

def readNode : JsValue → Option NodeFacts :=
  readFields fun fields => do
    let id ← (get fields (js "id")).text?
    let sourceId ← (get fields (js "sourceId")).text?
    let kind ← (get fields (js "kind")).text?
    let range ← readRange (get fields (js "range"))
    let childIds ← readList text? (get fields (js "childIds"))
    return { id, sourceId, kind, range, childIds }

def readDocument : JsValue → Option DocumentFacts :=
  readFields fun fields => do
    let id ← (get fields (js "id")).text?
    let sourceId ← (get fields (js "sourceId")).text?
    let rootNodeId ← (get fields (js "rootNodeId")).text?
    let importIds ← readList text? (get fields (js "importIds"))
    let statementIds ← readList text? (get fields (js "statementIds"))
    let activationRuleIds ← readList text? (get fields (js "activationRuleIds"))
    return { id, sourceId, rootNodeId, importIds, statementIds, activationRuleIds }

def readImport : JsValue → Option IrImport :=
  readFields fun fields => do
    let id ← (get fields (js "id")).text?
    let documentId ← (get fields (js "documentId")).text?
    let range ← readRange (get fields (js "range"))
    let specifierRange ← readRange (get fields (js "specifierRange"))
    let rawSpecifier ← (get fields (js "rawSpecifier")).text?
    return { id, documentId, range, specifierRange, rawSpecifier }

def readStatement : JsValue → Option IrStatement :=
  readFields fun fields => do
    let id ← (get fields (js "id")).text?
    let documentId ← (get fields (js "documentId")).text?
    let range ← readRange (get fields (js "range"))
    let text ← (get fields (js "text")).text?
    return { id, documentId, range, text }

def readSelectorRange : JsValue → Option (Option SourceRange) :=
  readFields fun fields =>
    match get fields (js "sourceRange") with
    | .null => some none
    | value => (readRange value).map some

def readActivationRule : JsValue → Option IrActivationRule :=
  readFields fun fields => do
    let id ← (get fields (js "id")).text?
    let documentId ← (get fields (js "documentId")).text?
    let included ← readList readSelectorRange (get fields (js "include"))
    let excluded ← readList readSelectorRange (get fields (js "exclude"))
    return { id, documentId, ranges := (included ++ excluded).reduceOption }

def ofValue : JsValue → Option InstructionIr :=
  readFields fun fields => do
    let sources ← readList readSource (get fields (js "sources"))
    let nodes ← readList readNode (get fields (js "nodes"))
    let documents ← readList readDocument (get fields (js "documents"))
    let imports ← readList readImport (get fields (js "imports"))
    let statements ← readList readStatement (get fields (js "statements"))
    let activationRules ← readList readActivationRule (get fields (js "activationRules"))
    return { sources, nodes, documents, imports, statements, activationRules }

/-! ## Soundness -/

variable (ir : InstructionIr)

def Child (parent child : Text) : Prop :=
  ∃ node ∈ ir.nodes, node.id = parent ∧ child ∈ node.childIds

def Below (source : IrSource) (node : NodeFacts) : Prop :=
  Relation.ReflTransGen ir.Child source.rootNodeId node.id

/-- The nodes of each source are a tree with the root node of the source. -/
structure Forest : Prop where
  sourceIds : (ir.sources.map (·.id)).Nodup
  nodeIds : (ir.nodes.map (·.id)).Nodup
  root : ∀ source ∈ ir.sources, ∃ node ∈ ir.nodes,
    node.id = source.rootNodeId ∧ node.sourceId = source.id
  /-- A child is a node of the source of its parent. -/
  child : ∀ node ∈ ir.nodes, ∀ childId ∈ node.childIds, ∃ child ∈ ir.nodes,
    child.id = childId ∧ child.sourceId = node.sourceId
  acyclic : ∀ id, ¬ Relation.TransGen ir.Child id id
  /-- A node is below the root of its source, and of no other. -/
  reached : ∀ node ∈ ir.nodes, ∃ source ∈ ir.sources, source.id = node.sourceId ∧
    ∀ other ∈ ir.sources, ir.Below other node ↔ other = source
  root_no_parent : ∀ source ∈ ir.sources, ∀ node ∈ ir.nodes, source.rootNodeId ∉ node.childIds
  parent : ∀ node ∈ ir.nodes, (∀ source ∈ ir.sources, source.rootNodeId ≠ node.id) →
    ∃! parent, parent ∈ ir.nodes ∧ node.id ∈ parent.childIds

/-- The first range ends at the second one's start or in front of it. -/
def InFront (first second : NodeFacts) : Prop :=
  first.range.stop.utf16Offset ≤ second.range.start.utf16Offset

/-- Children lie inside of their parent, one behind the other. -/
structure Nested : Prop where
  inside : ∀ node ∈ ir.nodes, ∀ child ∈ ir.nodes, child.id ∈ node.childIds →
    rangeContains node.range child.range = true
  ordered : ∀ node ∈ ir.nodes, node.childIds.Pairwise fun first second =>
    first ≠ second ∧ ∀ a ∈ ir.nodes, ∀ b ∈ ir.nodes, a.id = first → b.id = second → InFront a b

def ranges : List SourceRange :=
  ir.nodes.map (·.range) ++ ir.imports.map (·.range) ++ ir.imports.map (·.specifierRange) ++
    ir.statements.map (·.range) ++ ir.activationRules.flatMap (·.ranges)

def Quotes (range : SourceRange) (text : Text) : Prop :=
  ∃ source ∈ ir.sources, source.id = range.sourceId ∧
    text = (source.text.drop range.start.utf16Offset).take
      (range.stop.utf16Offset - range.start.utf16Offset)

/-- Every record belongs to one document, which lists it, and documents list nothing else. -/
structure Partitioned {α : Type} (documents : List DocumentFacts)
    (listed : DocumentFacts → List Text) (records : List α) (id documentId : α → Text) :
    Prop where
  ids : (records.map id).Nodup
  listedOnce : ∀ document ∈ documents, (listed document).Nodup
  owner : ∀ record ∈ records, ∃! document, document ∈ documents ∧ document.id = documentId record
  listed_iff : ∀ document ∈ documents, ∀ recordId, recordId ∈ listed document ↔
    ∃ record ∈ records, id record = recordId ∧ documentId record = document.id

structure Sound : Prop where
  forest : ir.Forest
  nested : ir.Nested
  trueRanges : ∀ range ∈ ir.ranges, ∃ source ∈ ir.sources, TrueRange source.id source.text range
  specifiers : ∀ record ∈ ir.imports, ir.Quotes record.specifierRange record.rawSpecifier
  statementTexts : ∀ statement ∈ ir.statements, ir.Quotes statement.range statement.text
  documentIds : (ir.documents.map (·.id)).Nodup
  imports : Partitioned ir.documents (·.importIds) ir.imports (·.id) (·.documentId)
  statements : Partitioned ir.documents (·.statementIds) ir.statements (·.id) (·.documentId)
  activationRules :
    Partitioned ir.documents (·.activationRuleIds) ir.activationRules (·.id) (·.documentId)

end InstructionIr

end AgentContextLint
