import AgentContextLint.Core.InstructionIr
import AgentContextLint.Core.IrAcceptance
import Mathlib.Data.List.ReduceOption

/-!
# What the validators of records accept

A record without issues can be read, and the facts that its validator returns are the ones of the
record (`validateNode_clean` and its likes). The ranges of such a record are true ranges of its
source (`RangeKnown`).
-/

namespace AgentContextLint.IrValidation

open Utf16 Checked InstructionIr List
open SourceCoordinates (TrueRange Boundary truePosition)
open JsValue (get text?)
open Option (any_some bind_some filter_eq_some_iff isSome_iff_exists map_some)

/-! ## Readers -/

section Readers

variable {record : Fields} {key : String} {path : Text}

theorem text?_of_identifier? {value : JsValue} {id : Text} (read : identifier? value = some id) :
    value.text? = some id := by
  rw [(identifier?_eq_some.mp read).1]
  rfl

theorem text?_of_enum {value : JsValue} {text : Text} {test : Text → Bool}
    (read : (nonEmptyText? value).filter test = some text) : value.text? = some text := by
  unfold nonEmptyText? at read
  simp only [filter_eq_some_iff] at read
  exact read.1.1

theorem requiredValue_clean {α : Type} {validate : JsValue → Text → Validated (Option α)}
    (clean : (requiredValue validate record key path).Clean) :
    (validate (get record (js key)) (fieldPath path key)).Clean ∧
      (requiredValue validate record key path).value =
        (validate (get record (js key)) (fieldPath path key)).value := by
  unfold requiredValue at clean ⊢
  dsimp only at clean ⊢
  split_ifs at clean ⊢ with undefined
  · exact absurd clean (cons_ne_nil _ _)
  · exact ⟨clean, rfl⟩

theorem identifierItems_clean {index : Nat} {seen : List Text} {values : List JsValue}
    (clean : (identifierItems path index seen values).Clean) :
    ∃ ids, values.mapM text? = some ids ∧
      (identifierItems path index seen values).value = ids ∧ ids.Nodup ∧ ∀ id ∈ ids, id ∉ seen := by
  induction values generalizing index seen with
  | nil => exact ⟨[], rfl, rfl, nodup_nil, nofun⟩
  | cons value rest ih =>
    unfold identifierItems at clean ⊢
    cases read : value.text?.filter isStableIdentifier with
    | none =>
      rw [read] at clean
      exact absurd ((clean_bind _ _).mp clean).1 clean_addIssue
    | some id =>
      rw [read] at clean
      obtain ⟨fresh, clean⟩ := (clean_bind _ _).mp clean
      obtain ⟨clean, -⟩ := (clean_bind _ _).mp clean
      obtain ⟨ids, items, collected, nodup, apart⟩ := ih clean
      have text := (filter_eq_some_iff.mp read).1
      refine ⟨id :: ids, ?_, ?_, ?_, ?_⟩
      · rw [mapM_cons, text, items]
        rfl
      · dsimp only
        rw [value_bind, value_bind, value_pure, collected]
      · exact nodup_cons.mpr ⟨fun member => apart id member mem_cons_self, nodup⟩
      · refine forall_mem_cons.mpr ⟨clean_pushIf.mp fresh, fun other member inSeen => ?_⟩
        exact apart other member (mem_cons_of_mem _ inSeen)

theorem identifierArray_clean {minimum : Nat} (clean : (identifierArray record key path minimum).Clean) :
    ∃ ids, readList text? (get record (js key)) = some ids ∧
      (identifierArray record key path minimum).value = ids ∧ ids.Nodup := by
  unfold identifierArray at clean ⊢
  rw [clean_bind, clean_requiredArray, value_requiredArray] at clean
  obtain ⟨array, clean⟩ := clean
  rw [value_bind, value_requiredArray]
  cases value : get record (js key) with
  | array items =>
    rw [value] at clean
    obtain ⟨-, clean⟩ := (clean_bind _ _).mp clean
    obtain ⟨ids, read, collected, nodup, -⟩ := identifierItems_clean clean
    exact ⟨ids, read, collected, nodup⟩
  | _ =>
    rw [value] at array
    cases array

end Readers

variable {path : Text} {sources : Sources} {value : JsValue} {document : Option DocumentFacts}
  {documents : Documents} {nodes : Nodes} {record : Fields} {id : Text}

/-! ## Ranges -/

theorem validatePosition_clean
    {positions : Option SourcePositionIndex} (clean : (validatePosition value path positions).Clean) :
    ∃ position, readPosition value = some position ∧
      (validatePosition value path positions).value = some position ∧
      ∀ index ∈ positions, expectedPosition index position.utf16Offset = some position := by
  unfold validatePosition at clean ⊢
  rw [clean_bind, clean_objectValue, value_objectValue] at clean
  obtain ⟨⟨record, rfl, -⟩, clean⟩ := clean
  simp only [clean_bind, clean_requiredInteger, value_requiredInteger] at clean
  obtain ⟨bytes, units, line, column, clean⟩ := clean
  obtain ⟨byteOffset, bytes⟩ := isSome_iff_exists.mp bytes
  obtain ⟨utf16Offset, units⟩ := isSome_iff_exists.mp units
  obtain ⟨line, lines⟩ := isSome_iff_exists.mp line
  obtain ⟨utf16Column, columns⟩ := isSome_iff_exists.mp column
  simp only [bytes, units, lines, columns] at clean
  refine ⟨{ byteOffset, utf16Offset, line, utf16Column }, ?_, ?_, ?_⟩
  · simp only [readPosition, readFields, bytes, units, lines, columns]
    rfl
  · simp only [value_bind, value_objectValue, value_requiredInteger, bytes, units, lines, columns]
    cases positions <;> rfl
  · rintro index rfl
    obtain ⟨checked, -⟩ := (clean_bind _ _).mp clean
    unfold checkPosition at checked
    cases expects : expectedPosition index utf16Offset with
    | none =>
      simp only [expects] at checked
      exact absurd checked clean_addIssue
    | some expected =>
      simp only [expects, clean_addIssueIf, not_or, not_not] at checked
      obtain ⟨sameBytes, sameLine, sameColumn⟩ := checked
      have sameOffset : expected.utf16Offset = utf16Offset := by
        unfold expectedPosition at expects
        split at expects
        · dsimp only at expects
          split at expects
          · cases expects
          · obtain ⟨start, -, rfl⟩ := Option.map_eq_some_iff.mp expects
            rfl
        · cases expects
      obtain ⟨_, _, _, _⟩ := expected
      cases sameBytes; cases sameLine; cases sameColumn; cases sameOffset
      rfl

/-- The sources of a bundle that were valid, under their ids. -/
def KnownSources (sources : Sources) : Prop :=
  ∀ id facts, sources.get? id = some facts → facts.id = id ∧ facts.Sound

def RangeKnown (sources : Sources) (range : SourceRange) : Prop :=
  ∃ facts, sources.get? range.sourceId = some facts ∧ TrueRange facts.id facts.text range

theorem SourceFacts.Sound.boundary {facts : SourceFacts} (sound : facts.Sound)
    {position : SourcePosition}
    (expected : expectedPosition facts.positions position.utf16Offset = some position) :
    Boundary facts.text position.utf16Offset ∧
      position = truePosition facts.text position.utf16Offset := by
  rw [sound.positions, expectedPosition_eq sound.wellFormed] at expected
  split_ifs at expected with inside
  exact ⟨⟨inside.1, inside.2⟩, (Option.some.inj expected).symm⟩

theorem validateRange_clean
    (known : KnownSources sources) (clean : (validateRange value path sources).Clean) :
    ∃ range, readRange value = some range ∧ (validateRange value path sources).value = some range ∧
      RangeKnown sources range := by
  unfold validateRange requiredPosition at clean ⊢
  rw [clean_bind, clean_objectValue, value_objectValue] at clean
  obtain ⟨⟨record, rfl, -⟩, clean⟩ := clean
  simp only [clean_bind, clean_requiredIdentifier, value_requiredIdentifier, clean_addIssueIf,
    Bool.not_eq_true] at clean
  obtain ⟨identified, found, startThere, stopThere, clean⟩ := clean
  simp only [startThere, stopThere, Bool.false_eq_true, if_false] at clean
  obtain ⟨sourceId, isId⟩ := isSome_iff_exists.mp identified
  simp only [isId, bind_some, Option.isSome_some, true_and] at found clean
  cases source : sources.get? sourceId with
  | none =>
    rw [source] at found
    exact absurd rfl found
  | some facts =>
    simp only [source, map_some] at clean
    obtain ⟨startClean, stopClean, ordered⟩ := clean
    obtain ⟨start, startRead, startValue, startExpected⟩ := validatePosition_clean startClean
    obtain ⟨stop, stopRead, stopValue, stopExpected⟩ := validatePosition_clean stopClean
    obtain ⟨sameId, sound⟩ := known sourceId facts source
    obtain ⟨first, startTrue⟩ := sound.boundary (startExpected _ rfl)
    obtain ⟨last, stopTrue⟩ := sound.boundary (stopExpected _ rfl)
    simp only [startValue, stopValue, clean_bind, clean_addIssueIf, not_or, not_lt] at ordered
    refine ⟨{ sourceId, start, stop }, ?_, ?_, facts, source, ?_⟩
    · simp only [readRange, readFields, text?_of_identifier? isId, startRead, stopRead]
      rfl
    · simp [value_bind, value_objectValue, value_requiredIdentifier, isId, source, startThere,
        stopThere, startValue, stopValue, value_pure]
    · refine ⟨start.utf16Offset, stop.utf16Offset, ordered.1.1, first, last, ?_⟩
      rw [SourceCoordinates.trueRange, ← startTrue, ← stopTrue, sameId]

/-! ## Sources and nodes -/

/-- The id by which `collectIds` knows a record. -/
def recordId : JsValue → Option Text
  | .object item => (get item (js "id")).text?.filter isStableIdentifier
  | _ => none

theorem recordId_of_identifier? (read : identifier? (get record (js "id")) = some id) :
    recordId (.object record) = some id := by
  obtain ⟨value, -, stable⟩ := identifier?_eq_some.mp read
  rw [recordId, value]
  exact filter_eq_some_iff.mpr ⟨rfl, stable⟩

def sourceFacts (source : IrSource) : SourceFacts where
  id := source.id
  path := source.path
  text := source.text
  rootNodeId := source.rootNodeId
  positions := buildSourcePositionIndex source.text

theorem validateSource_clean (clean : (validateSource value path).Clean) :
    ∃ source, readSource value = some source ∧
      (validateSource value path).value = some (sourceFacts source) ∧
      recordId value = some source.id := by
  unfold validateSource at clean ⊢
  rw [clean_bind, clean_objectValue, value_objectValue] at clean
  obtain ⟨⟨record, rfl, -⟩, clean⟩ := clean
  simp only [clean_bind, clean_requiredIdentifier, clean_requiredString, clean_requiredText,
    value_requiredString] at clean
  obtain ⟨identified, paths, -, -, -, -, texts, -, -, -, -, rooted, -⟩ := clean
  obtain ⟨id, isId⟩ := isSome_iff_exists.mp identified
  obtain ⟨sourcePath, isPath⟩ := isSome_iff_exists.mp paths
  obtain ⟨text, isText⟩ := isSome_iff_exists.mp texts
  obtain ⟨rootNodeId, isRoot⟩ := isSome_iff_exists.mp rooted
  have pathText : (get record (js "path")).text? = some sourcePath :=
    (filter_eq_some_iff.mp isPath).1
  refine ⟨{ id, path := sourcePath, text, rootNodeId }, ?_, ?_, recordId_of_identifier? isId⟩
  · simp only [readSource, readFields, text?_of_identifier? isId, pathText, isText,
      text?_of_identifier? isRoot]
    rfl
  · rw [value_bind, value_objectValue]
    dsimp only
    repeat rw [value_bind]
    simp only [value_requiredIdentifier, value_requiredString, value_requiredText, isId, isPath,
      isText, isRoot]
    rfl

/-- What a node without issues has by itself. -/
structure NodeFacts.Accepted (sources : Sources) (node : NodeFacts) : Prop where
  range : RangeKnown sources node.range
  ofSource : node.range.sourceId = node.sourceId
  childIds : node.childIds.Nodup

theorem validateNode_clean
    (known : KnownSources sources) (clean : (validateNode value path sources).Clean) :
    ∃ node, readNode value = some node ∧ (validateNode value path sources).value = some node ∧
      recordId value = some node.id ∧ node.Accepted sources := by
  unfold validateNode at clean ⊢
  cases value with
  | object record =>
    dsimp only at clean ⊢
    rw [clean_bind, value_objectValue] at clean
    obtain ⟨-, clean⟩ := clean
    simp only [clean_bind, clean_requiredIdentifier, clean_enumString, clean_addIssueIf,
      value_requiredIdentifier, value_enumString] at clean
    obtain ⟨identified, sourced, kinds, ranged, childrenClean, sameSource, -⟩ := clean
    obtain ⟨id, isId⟩ := isSome_iff_exists.mp identified
    obtain ⟨sourceId, isSource⟩ := isSome_iff_exists.mp sourced
    obtain ⟨kind, isKind⟩ := isSome_iff_exists.mp kinds
    obtain ⟨rangeClean, rangeIs⟩ := requiredValue_clean ranged
    obtain ⟨range, rangeRead, rangeValue, rangeKnown⟩ := validateRange_clean known rangeClean
    obtain ⟨childIds, childrenRead, childrenValue, nodup⟩ := identifierArray_clean childrenClean
    rw [rangeValue] at rangeIs
    simp only [rangeIs, isSource, any_some, decide_eq_true_eq, not_not] at sameSource
    refine ⟨{ id, sourceId, kind, range, childIds }, ?_, ?_, recordId_of_identifier? isId,
      rangeKnown, sameSource, nodup⟩
    · simp only [readNode, readFields, text?_of_identifier? isId, text?_of_identifier? isSource,
        text?_of_enum isKind, rangeRead, childrenRead]
      rfl
    · rw [value_bind, value_objectValue]
      dsimp only
      repeat rw [value_bind]
      simp only [value_requiredIdentifier, value_enumString, isId, isSource, isKind, rangeIs,
        childrenValue]
      rfl
  | _ => exact absurd clean (cons_ne_nil _ _)

/-! ## Documents and their records -/

/-- What a document without issues has by itself. -/
structure DocumentFacts.Accepted (document : DocumentFacts) : Prop where
  importIds : document.importIds.Nodup
  statementIds : document.statementIds.Nodup
  activationRuleIds : document.activationRuleIds.Nodup

theorem validateDocument_clean (clean : (validateDocument value path sources nodes).Clean) :
    ∃ document, readDocument value = some document ∧
      (validateDocument value path sources nodes).value = some document ∧
      recordId value = some document.id ∧ document.Accepted := by
  unfold validateDocument at clean ⊢
  rw [clean_bind, clean_objectValue, value_objectValue] at clean
  obtain ⟨⟨record, rfl, -⟩, clean⟩ := clean
  simp only [clean_bind, clean_requiredIdentifier] at clean
  obtain ⟨identified, sourced, -, -, -, rooted, imports, statements, activations, -⟩ := clean
  obtain ⟨id, isId⟩ := isSome_iff_exists.mp identified
  obtain ⟨sourceId, isSource⟩ := isSome_iff_exists.mp sourced
  obtain ⟨rootNodeId, isRoot⟩ := isSome_iff_exists.mp rooted
  obtain ⟨importIds, importsRead, importsValue, importsOnce⟩ := identifierArray_clean imports
  obtain ⟨statementIds, statementsRead, statementsValue, statementsOnce⟩ :=
    identifierArray_clean statements
  obtain ⟨ruleIds, rulesRead, rulesValue, rulesOnce⟩ := identifierArray_clean activations
  refine ⟨{
    id, sourceId, rootNodeId, importIds, statementIds, activationRuleIds := ruleIds }, ?_, ?_,
    recordId_of_identifier? isId, importsOnce, statementsOnce, rulesOnce⟩
  · simp only [readDocument, readFields, text?_of_identifier? isId, text?_of_identifier? isSource,
      text?_of_identifier? isRoot, importsRead, statementsRead, rulesRead]
    rfl
  · rw [value_bind, value_objectValue]
    dsimp only
    repeat rw [value_bind]
    simp only [value_requiredIdentifier, isId, isSource, isRoot, importsValue, statementsValue,
      rulesValue]
    rfl

theorem addUnknown_clean {α : Type} {target : Option α} {message : String}
    (clean : (addUnknown (some id) target path message).Clean) : target.isSome = true := by
  unfold addUnknown at clean
  rw [clean_addIssueIf] at clean
  cases target with
  | none => exact absurd ⟨rfl, rfl⟩ clean
  | some target => rfl

def importFacts (record : IrImport) : OwnedFacts := ⟨record.id, record.documentId⟩

/-- What an import without issues has. -/
structure ImportAccepted (documents : Documents) (sources : Sources) (record : IrImport) : Prop where
  range : RangeKnown sources record.range
  specifierRange : RangeKnown sources record.specifierRange
  specifier : sourceSlice sources record.specifierRange = some record.rawSpecifier
  document : (documents.get? record.documentId).isSome = true

theorem RangeKnown.slice {range : SourceRange} (known : RangeKnown sources range) :
    ∃ slice, sourceSlice sources range = some slice := by
  obtain ⟨facts, found, -⟩ := known
  exact ⟨_, by rw [sourceSlice, found]; rfl⟩

theorem validateImport_clean (known : KnownSources sources)
    (clean : (validateImport value path documents nodes sources).Clean) :
    ∃ record, readImport value = some record ∧
      (validateImport value path documents nodes sources).value = some (importFacts record) ∧
      recordId value = some record.id ∧ ImportAccepted documents sources record := by
  unfold validateImport at clean ⊢
  rw [clean_bind, clean_objectValue, value_objectValue] at clean
  obtain ⟨⟨record, rfl, -⟩, clean⟩ := clean
  simp only [clean_bind, clean_requiredIdentifier, clean_requiredText, clean_addIssueIf,
    value_requiredIdentifier, value_requiredText] at clean
  obtain ⟨identified, documented, -, -, ranged, specifierRanged, texts, -, -, -, documentKnown, -, -,
    -, -, quoted, -⟩ := clean
  obtain ⟨id, isId⟩ := isSome_iff_exists.mp identified
  obtain ⟨documentId, isDocument⟩ := isSome_iff_exists.mp documented
  obtain ⟨rawSpecifier, isRaw⟩ := isSome_iff_exists.mp texts
  obtain ⟨rangeClean, -⟩ := requiredValue_clean ranged
  obtain ⟨range, rangeRead, -, rangeKnown⟩ := validateRange_clean known rangeClean
  obtain ⟨specifierClean, specifierIs⟩ := requiredValue_clean specifierRanged
  obtain ⟨specifierRange, specifierRead, specifierValue, specifierKnown⟩ :=
    validateRange_clean known specifierClean
  obtain ⟨slice, sliced⟩ := specifierKnown.slice
  rw [specifierValue] at specifierIs
  rw [isDocument] at documentKnown
  simp only [specifierIs, bind_some, sliced, isRaw, any_some, decide_eq_true_eq,
    not_not] at quoted
  refine ⟨{ id, documentId, range, specifierRange, rawSpecifier }, ?_, ?_,
    recordId_of_identifier? isId, rangeKnown, specifierKnown, quoted ▸ sliced,
    addUnknown_clean documentKnown⟩
  · simp only [readImport, readFields, text?_of_identifier? isId, text?_of_identifier? isDocument,
      rangeRead, specifierRead, isRaw]
    rfl
  · rw [value_bind, value_objectValue]
    dsimp only
    repeat rw [value_bind]
    rw [value_pure, value_requiredIdentifier, value_requiredIdentifier, isId, isDocument]
    rfl

def statementFacts (statement : IrStatement) : OwnedFacts := ⟨statement.id, statement.documentId⟩

/-- What a statement without issues has. -/
structure StatementAccepted (documents : Documents) (sources : Sources) (statement : IrStatement) :
    Prop where
  range : RangeKnown sources statement.range
  text : sourceSlice sources statement.range = some statement.text
  document : (documents.get? statement.documentId).isSome = true

theorem validateStatement_clean {nodeParents : Parents} (known : KnownSources sources)
    (clean : (validateStatement value path documents nodes nodeParents sources).Clean) :
    ∃ statement, readStatement value = some statement ∧
      (validateStatement value path documents nodes nodeParents sources).value =
        some (statementFacts statement) ∧
      recordId value = some statement.id ∧ StatementAccepted documents sources statement := by
  unfold validateStatement at clean ⊢
  rw [clean_bind, clean_objectValue, value_objectValue] at clean
  obtain ⟨⟨record, rfl, -⟩, clean⟩ := clean
  simp only [clean_bind, clean_requiredIdentifier, clean_requiredText, clean_addIssueIf,
    value_requiredIdentifier, value_requiredText] at clean
  obtain ⟨identified, documented, -, ranged, texts, -, documentKnown, -, -, quoted, -⟩ := clean
  obtain ⟨id, isId⟩ := isSome_iff_exists.mp identified
  obtain ⟨documentId, isDocument⟩ := isSome_iff_exists.mp documented
  obtain ⟨text, isText⟩ := isSome_iff_exists.mp texts
  obtain ⟨rangeClean, rangeIs⟩ := requiredValue_clean ranged
  obtain ⟨range, rangeRead, rangeValue, rangeKnown⟩ := validateRange_clean known rangeClean
  obtain ⟨slice, sliced⟩ := rangeKnown.slice
  rw [rangeValue] at rangeIs
  rw [isDocument] at documentKnown
  simp only [rangeIs, bind_some, sliced, isText, any_some, decide_eq_true_eq,
    not_not] at quoted
  refine ⟨{ id, documentId, range, text }, ?_, ?_, recordId_of_identifier? isId, rangeKnown,
    quoted ▸ sliced, addUnknown_clean documentKnown⟩
  · simp only [readStatement, readFields, text?_of_identifier? isId,
      text?_of_identifier? isDocument, rangeRead, isText]
    rfl
  · rw [value_bind, value_objectValue]
    dsimp only
    repeat rw [value_bind]
    rw [value_pure, value_requiredIdentifier, value_requiredIdentifier, isId, isDocument]
    rfl

/-! ## Activation rules -/

theorem exists_mapM {α β : Type} {f : α → Option β} {holds : β → Prop} {as : List α}
    (each : ∀ a ∈ as, ∃ b, f a = some b ∧ holds b) :
    ∃ bs, as.mapM f = some bs ∧ ∀ b ∈ bs, holds b := by
  induction as with
  | nil => exact ⟨[], rfl, nofun⟩
  | cons a rest ih =>
    obtain ⟨b, atHead, holdsHere⟩ := each a mem_cons_self
    obtain ⟨bs, atTail, later⟩ := ih fun a member => each a (mem_cons_of_mem _ member)
    exact ⟨b :: bs, by rw [mapM_cons, atHead, atTail]; rfl,
      forall_mem_cons.mpr ⟨holdsHere, later⟩⟩

theorem validateSelectorRange_clean (known : KnownSources sources)
    (clean : (validateSelectorRange record path document sources).Clean) :
    ∃ range, readSelectorRange (.object record) = some range ∧
      ∀ r ∈ range, RangeKnown sources r := by
  unfold validateSelectorRange at clean
  unfold readSelectorRange readFields
  dsimp only
  split at clean
  · exact absurd clean clean_addIssue
  · rename_i null
    exact ⟨none, by rw [null], nofun⟩
  · obtain ⟨rangeClean, -⟩ := (clean_bind _ _).mp clean
    obtain ⟨range, read, -, rangeKnown⟩ := validateRange_clean known rangeClean
    refine ⟨some range, ?_, fun r eq => Option.some.inj eq ▸ rangeKnown⟩
    split
    · exact absurd ‹_› ‹_ → False›
    · rw [read]
      rfl

theorem validateSelector_clean (known : KnownSources sources)
    (clean : (validateSelector document sources path value).Clean) :
    ∃ range, readSelectorRange value = some range ∧ ∀ r ∈ range, RangeKnown sources r := by
  unfold validateSelector at clean
  cases value with
  | object record =>
    dsimp only at clean
    rw [clean_bind, value_objectValue] at clean
    simp only [clean_bind] at clean
    exact validateSelectorRange_clean known clean.2.2.2.1
  | _ => exact absurd clean (cons_ne_nil _ _)

theorem validateSelectors_clean {key : String} (known : KnownSources sources)
    {at_ : Nat → Text} (there : (requiredArray record key path).Clean)
    (clean : (mapIdx (fun index selector => validateSelector document sources (at_ index) selector) 0
      ((array? (get record (js key))).getD [])).Clean) :
    ∃ ranges, readList readSelectorRange (get record (js key)) = some ranges ∧
      ∀ range ∈ ranges, ∀ r ∈ range, RangeKnown sources r := by
  rw [clean_requiredArray] at there
  cases value : get record (js key) with
  | array items =>
    rw [value] at clean
    refine exists_mapM fun selector member => ?_
    obtain ⟨i, found⟩ := getElem?_of_mem member
    exact validateSelector_clean known (clean_mapIdx.mp clean i selector found)
  | _ =>
    rw [value] at there
    cases there

def activationFacts (rule : IrActivationRule) : OwnedFacts := ⟨rule.id, rule.documentId⟩

/-- What an activation rule without issues has. -/
structure ActivationAccepted (documents : Documents) (sources : Sources) (rule : IrActivationRule) :
    Prop where
  ranges : ∀ range ∈ rule.ranges, RangeKnown sources range
  document : (documents.get? rule.documentId).isSome = true

theorem validateActivation_clean (known : KnownSources sources)
    (clean : (validateActivation value path documents sources).Clean) :
    ∃ rule, readActivationRule value = some rule ∧
      (validateActivation value path documents sources).value = some (activationFacts rule) ∧
      recordId value = some rule.id ∧ ActivationAccepted documents sources rule := by
  unfold validateActivation at clean ⊢
  rw [clean_bind, clean_objectValue, value_objectValue] at clean
  obtain ⟨⟨record, rfl, -⟩, clean⟩ := clean
  simp only [clean_bind, clean_requiredIdentifier, value_requiredIdentifier, value_requiredArray]
    at clean
  obtain ⟨identified, documented, -, -, -, -, -, -, documentKnown, included, excluded, includeClean,
    excludeClean, -⟩ := clean
  obtain ⟨id, isId⟩ := isSome_iff_exists.mp identified
  obtain ⟨documentId, isDocument⟩ := isSome_iff_exists.mp documented
  obtain ⟨first, includeRead, includeKnown⟩ := validateSelectors_clean known included includeClean
  obtain ⟨second, excludeRead, excludeKnown⟩ := validateSelectors_clean known excluded excludeClean
  rw [isDocument] at documentKnown
  refine ⟨{ id, documentId, ranges := (first ++ second).reduceOption }, ?_, ?_,
    recordId_of_identifier? isId, fun range member => ?_, addUnknown_clean documentKnown⟩
  · simp only [readActivationRule, readFields, text?_of_identifier? isId,
      text?_of_identifier? isDocument, includeRead, excludeRead]
    rfl
  · rw [value_bind, value_objectValue]
    dsimp only
    repeat rw [value_bind]
    rw [value_pure, value_requiredIdentifier, value_requiredIdentifier, isId, isDocument]
    rfl
  · rcases mem_append.mp (reduceOption_mem_iff.mp member) with here | here
    · exact includeKnown _ here range rfl
    · exact excludeKnown _ here range rfl

end AgentContextLint.IrValidation
