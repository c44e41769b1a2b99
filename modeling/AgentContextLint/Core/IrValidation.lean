import AgentContextLint.Core.DiagnosticFingerprint
import AgentContextLint.Core.SourceCoordinates
import AgentContextLint.Lib.Checked
import AgentContextLint.Lib.JsValue
import AgentContextLint.Lib.Netstring
import AgentContextLint.Lib.OrderedMap

/-!
# Validation of sources and ranges

Model of the readers and of the validation of source documents and ranges in
`packages/core/src/ir-validation.ts`, with the JSON boundary of `contract-validation.ts`. A
validator returns all of its issues; the source stops at the last issue that a list may hold, and
`bounded` is what it has then.
-/

namespace AgentContextLint

open Utf16 Utf8 Sha256 Checked
open RepositoryPath (isRepositoryRelativePath repositoryRoot)
open JsValue (get text?)
open SourceCoordinates (unitBytes)

/-! ## Issues -/

inductive InstructionIrValidationCode
  | duplicateId
  | invalidDigest
  | invalidJson
  | invalidPath
  | invalidRange
  | invalidRelationship
  | invalidState
  | invalidValue
  | missingField
  | resourceLimit
  | unknownField
  deriving DecidableEq

structure InstructionIrValidationIssue where
  code : InstructionIrValidationCode
  message : Text
  path : Text
  deriving DecidableEq

namespace IrValidation

abbrev Validated (α : Type) := Checked InstructionIrValidationIssue α

abbrev Fields := List (Text × JsValue)

def maxValidationIssues : Nat := 256

def limitIssue : InstructionIrValidationIssue where
  code := .resourceLimit
  message := js "validation stopped after 255 issues"
  path := js "$"

/-- What `addIssue` keeps of the issues of a validator. -/
def bounded (issues : List InstructionIrValidationIssue) : List InstructionIrValidationIssue :=
  if issues.length < maxValidationIssues then issues
  else issues.take (maxValidationIssues - 1) ++ [limitIssue]

def addIssue (code : InstructionIrValidationCode) (path : Text) (message : String) :
    Validated Unit := push ⟨code, js message, path⟩

def addIssueIf (condition : Prop) [Decidable condition] (code : InstructionIrValidationCode)
    (path : Text) (message : String) : Validated Unit :=
  pushIf condition ⟨code, js message, path⟩

def fieldPath (path : Text) (key : String) : Text := path ++ js "." ++ js key

def itemPath (path : Text) (index : Nat) : Text :=
  path ++ js "[" ++ Netstring.decimalText index ++ js "]"

/-! ## The JSON boundary -/

def maxJsonNestingDepth : Nat := 256

def depthMessage : Text := js "must not exceed 256 nested JSON containers"

/-- What is said of a value that is no data; what else such a value may hold is left out. -/
def exoticMessage (depth : Nat) : JsExotic → Text
  | .notJson => js "must be a JSON value"
  | .proxy => js "proxies are not JSON data"
  | .accessor => js "accessor properties are not JSON data"
  | .repeated =>
    if maxJsonNestingDepth ≤ depth then depthMessage else js "must not contain a reference cycle"
  | .irregularArray =>
    if maxJsonNestingDepth ≤ depth then depthMessage
    else js "must be a dense array with every index present"
  | .classInstance =>
    if maxJsonNestingDepth ≤ depth then depthMessage else js "must be a plain JSON object"

mutual

/-- The issues of `validateJsonValue` without limits. -/
def jsonIssues (path : Text) (depth : Nat) : JsValue → List InstructionIrValidationIssue
  | .undefined => [⟨.invalidJson, js "must be a JSON value", path⟩]
  | .null | .boolean _ | .string _ => []
  | .number (.integer _) | .number (.fractional _) => []
  | .number _ =>
    [⟨.invalidJson, js "must be a finite JSON number other than negative zero", path⟩]
  | .array items =>
    if maxJsonNestingDepth ≤ depth then [⟨.invalidJson, depthMessage, path⟩]
    else jsonItemIssues path depth 0 items
  | .object fields =>
    if maxJsonNestingDepth ≤ depth then [⟨.invalidJson, depthMessage, path⟩]
    else jsonFieldIssues path depth fields
  | .exotic kind => [⟨.invalidJson, exoticMessage depth kind, path⟩]

def jsonItemIssues (path : Text) (depth index : Nat) :
    List JsValue → List InstructionIrValidationIssue
  | [] => []
  | item :: rest =>
    jsonIssues (itemPath path index) (depth + 1) item ++
      jsonItemIssues path depth (index + 1) rest

def jsonFieldIssues (path : Text) (depth : Nat) :
    List (Text × JsValue) → List InstructionIrValidationIssue
  | [] => []
  | (key, value) :: rest =>
    jsonIssues (path ++ js "." ++ key) (depth + 1) value ++ jsonFieldIssues path depth rest

end

/-! ## Readers -/

variable (value : JsValue)

def objectValue (path : Text) (keys : List String) : Validated (Option Fields) :=
  match value with
  | .object fields =>
    ⟨some fields, ((JsValue.keys fields).filter fun key => !(keys.map js).contains key).map
      fun key => ⟨.unknownField, js "is not part of contract version 0.1.0", path ++ js "." ++ key⟩⟩
  | _ => ⟨none, [⟨.invalidValue, js "must be an object", path⟩]⟩

/-- A required field, read by `read`. -/
def requiredField {α : Type} (read : JsValue → Option α) (message : String) (record : Fields)
    (key : String) (path : Text) : Validated (Option α) :=
  let value := get record (js key)
  if value.isUndefined then ⟨none, [⟨.missingField, js "is required", fieldPath path key⟩]⟩
  else
    match read value with
    | some a => pure (some a)
    | none => ⟨none, [⟨.invalidValue, js message, fieldPath path key⟩]⟩

def nonEmptyText? (value : JsValue) : Option Text := value.text?.filter (· ≠ [])

variable (record : Fields) (key : String)

def requiredString (path : Text) : Validated (Option Text) :=
  requiredField nonEmptyText? "must be a non-empty string" record key path

/-- `requiredString` with `allowEmpty` -/
def requiredText (path : Text) : Validated (Option Text) :=
  requiredField text? "must be a string" record key path

def requiredIdentifier (path : Text) : Validated (Option Text) := do
  let value ← requiredString record key path
  addIssueIf (value.any fun value => !isStableIdentifier value) .invalidValue (fieldPath path key)
    "must be a stable identifier"
  return value.filter isStableIdentifier

/-- `Number.MAX_SAFE_INTEGER` -/
def maxSafeInteger : Nat := 2 ^ 53 - 1

def safeNat? : JsValue → Option Nat
  | .number (.integer n) => if 0 ≤ n ∧ n ≤ maxSafeInteger then some n.toNat else none
  | .number .negativeZero => some 0
  | _ => none

def requiredInteger (path : Text) : Validated (Option Nat) :=
  requiredField safeNat? "must be a non-negative safe integer" record key path

def boolean? : JsValue → Option Bool
  | .boolean b => some b
  | _ => none

def requiredBoolean (path : Text) : Validated (Option Bool) :=
  requiredField boolean? "must be a Boolean" record key path

variable (path : Text)

def enumString (allowed : List String) : Validated (Option Text) := do
  let value ← requiredString record key path
  match value with
  | none => return none
  | some value =>
    if (allowed.map js).contains value then return some value
    else ⟨none, [⟨.invalidState, js "has unsupported state '" ++ value ++ js "'",
      fieldPath path key⟩]⟩

def array? : JsValue → Option (List JsValue)
  | .array items => some items
  | _ => none

def requiredArray (path : Text) : Validated (Option (List JsValue)) :=
  requiredField array? "must be an array" record key path

/-! ## Positions -/

/-- `-1` inside of a surrogate pair is `none`. -/
structure SourcePositionIndex where
  byteOffsets : List (Option Nat)
  lineStarts : List Nat
  deriving DecidableEq

def byteOffsetsFrom (byteOffset : Nat) : Text → List (Option Nat)
  | [] => []
  | [u] => [some (byteOffset + unitBytes u)]
  | u :: v :: rest =>
    if isHighSurrogate u && isLowSurrogate v then
      none :: some (byteOffset + 4) :: byteOffsetsFrom (byteOffset + 4) rest
    else some (byteOffset + unitBytes u) ::
      byteOffsetsFrom (byteOffset + unitBytes u) (v :: rest)

def lineStartsFrom (utf16Offset : Nat) : Text → List Nat
  | [] => []
  | [u] => if u = 0x0a ∨ u = 0x0d then [utf16Offset + 1] else []
  | u :: v :: rest =>
    if isHighSurrogate u && isLowSurrogate v then lineStartsFrom (utf16Offset + 2) rest
    else if u = 0x0a ∨ (u = 0x0d ∧ v ≠ 0x0a) then
      (utf16Offset + 1) :: lineStartsFrom (utf16Offset + 1) (v :: rest)
    else lineStartsFrom (utf16Offset + 1) (v :: rest)

def buildSourcePositionIndex (text : Text) : SourcePositionIndex where
  byteOffsets := some 0 :: byteOffsetsFrom 0 text
  lineStarts := 0 :: lineStartsFrom 0 text

def expectedPosition (positions : SourcePositionIndex) (utf16Offset : Nat) :
    Option SourcePosition :=
  match positions.byteOffsets[utf16Offset]? with
  | some (some byteOffset) =>
    let low := Bisect.bisect
      (fun middle => (positions.lineStarts[middle]?).any (· ≤ utf16Offset))
      positions.lineStarts.length
    match low with
    | 0 => none
    | line + 1 => (positions.lineStarts[line]?).map fun lastLineStart =>
      { byteOffset, utf16Offset, line, utf16Column := utf16Offset - lastLineStart }
  | _ => none

/-- What `validatePosition` says of a position with readable fields. -/
def checkPosition (positions : SourcePositionIndex) (position : SourcePosition) (path : Text) :
    Validated Unit :=
  match expectedPosition positions position.utf16Offset with
  | none => addIssue .invalidRange path
      "UTF-16 offset is outside the source or splits a surrogate pair"
  | some expected =>
    addIssueIf (expected.byteOffset ≠ position.byteOffset ∨ expected.line ≠ position.line ∨
        expected.utf16Column ≠ position.utf16Column)
      .invalidRange path "does not match the source's byte and UTF-16 coordinates"

def validatePosition (positions : Option SourcePositionIndex) :
    Validated (Option SourcePosition) := do
  let some record ← objectValue value path ["byteOffset", "utf16Offset", "line", "utf16Column"]
    | return none
  let byteOffset ← requiredInteger record "byteOffset" path
  let utf16Offset ← requiredInteger record "utf16Offset" path
  let line ← requiredInteger record "line" path
  let utf16Column ← requiredInteger record "utf16Column" path
  match byteOffset, utf16Offset, line, utf16Column with
  | some byteOffset, some utf16Offset, some line, some utf16Column =>
    let position : SourcePosition := { byteOffset, utf16Offset, line, utf16Column }
    match positions with
    | none => return some position
    | some positions => do
      checkPosition positions position path
      return some position
  | _, _, _, _ => return none

/-! ## Ranges -/

structure SourceFacts where
  id : Text
  path : Text
  text : Text
  rootNodeId : Text
  positions : SourcePositionIndex
  deriving DecidableEq

abbrev Sources := OrderedMap Text SourceFacts

/-- An end of a range: a position that must be there. -/
def requiredPosition (positions : Option SourcePositionIndex) : Validated (Option SourcePosition) :=
  let value := get record (js key)
  if value.isUndefined then return none
  else validatePosition value (fieldPath path key) positions

def validateRange (sources : Sources) : Validated (Option SourceRange) := do
  let some record ← objectValue value path ["sourceId", "start", "end"] | return none
  let sourceId ← requiredIdentifier record "sourceId" path
  let source := sourceId.bind sources.get?
  addIssueIf (sourceId.isSome ∧ source.isNone) .invalidRelationship (fieldPath path "sourceId")
    "references an unknown source"
  addIssueIf (get record (js "start")).isUndefined .missingField (fieldPath path "start")
    "is required"
  addIssueIf (get record (js "end")).isUndefined .missingField (fieldPath path "end")
    "is required"
  let start ← requiredPosition record "start" path (source.map (·.positions))
  let stop ← requiredPosition record "end" path (source.map (·.positions))
  match sourceId, start, stop with
  | some sourceId, some start, some stop => do
    addIssueIf (start.utf16Offset > stop.utf16Offset ∨ start.byteOffset > stop.byteOffset)
      .invalidRange path "start must not follow end"
    return some { sourceId, start, stop }
  | _, _, _ => return none

/-! ## Sources -/

/-- The loop of `lineEndingOf`: line endings of two units, line feeds and carriage returns. -/
def countLineEndings (crlf lf cr : Nat) : Text → Nat × Nat × Nat
  | [] => (crlf, lf, cr)
  | [u] => if u = 0x0d then (crlf, lf, cr + 1) else if u = 0x0a then (crlf, lf + 1, cr)
      else (crlf, lf, cr)
  | u :: v :: rest =>
    if u = 0x0d then
      if v = 0x0a then countLineEndings (crlf + 1) lf cr rest
      else countLineEndings crlf lf (cr + 1) (v :: rest)
    else if u = 0x0a then countLineEndings crlf (lf + 1) cr (v :: rest)
    else countLineEndings crlf lf cr (v :: rest)

def lineEndingOf (text : Text) : Text :=
  let (crlf, lf, cr) := countLineEndings 0 0 0 text
  let kinds := (if crlf > 0 then 1 else 0) + (if lf > 0 then 1 else 0) + (if cr > 0 then 1 else 0)
  if kinds = 0 then js "none"
  else if kinds > 1 then js "mixed"
  else if cr > 0 then js "cr"
  else if crlf > 0 then js "crlf"
  else js "lf"

/-- `SHA256_PATTERN` -/
def isSha256 (value : Text) : Bool := value.length = 64 && value.all isHexDigit

/-- The fields of a source that describe its text. -/
structure TextFacts where
  bom : Option Text
  byteLength : Option Nat
  utf16Length : Option Nat
  sha256 : Option Text
  lineEnding : Option Text

def validateSourceText (path text : Text) (facts : TextFacts) : Validated Unit := do
  addIssueIf (wellFormed text = false) .invalidValue (fieldPath path "text")
    "must contain well-formed Unicode"
  addIssueIf (facts.byteLength.any (· ≠ byteLength text)) .invalidValue (fieldPath path "byteLength")
    "does not equal the UTF-8 byte length"
  addIssueIf (facts.utf16Length.any (· ≠ text.length)) .invalidValue (fieldPath path "utf16Length")
    "does not equal the JavaScript UTF-16 length"
  addIssueIf (facts.sha256.any fun sha256 => !isSha256 sha256 || sha256Hex (encode text) ≠ sha256)
    .invalidDigest (fieldPath path "sha256")
    "must be the lowercase SHA-256 digest of the exact source text"
  addIssueIf (facts.lineEnding.any (lineEndingOf text ≠ ·)) .invalidValue
    (fieldPath path "lineEnding") "does not match the exact source line endings"
  addIssueIf (facts.bom.any
      ((if text.head? = some 0xfeff then js "utf-8" else js "none") ≠ ·))
    .invalidValue (fieldPath path "bom")
    "must describe whether the exact decoded text begins with a UTF-8 BOM marker"

def validateParseState (path : Text) : Validated Unit := do
  let some parseState ← objectValue value path ["state", "reason"] | return ()
  let state ← enumString parseState "state" path ["complete", "partial", "malformed"]
  addIssueIf (state = some (js "complete") ∧ ¬ (get parseState (js "reason")).isUndefined)
    .invalidValue (fieldPath path "reason") "is not allowed for complete parsing"
  if state = some (js "partial") ∨ state = some (js "malformed") then
    let _ ← requiredString parseState "reason" path
    return ()

def validateSource (path : Text) : Validated (Option SourceFacts) := do
  let some record ← objectValue value path
    ["id", "path", "encoding", "bom", "text", "byteLength", "utf16Length", "sha256", "lineEnding",
      "parseState", "rootNodeId"] | return none
  let id ← requiredIdentifier record "id" path
  let sourcePath ← requiredString record "path" path
  addIssueIf (sourcePath.any fun p => !isRepositoryRelativePath p || p == repositoryRoot)
    .invalidPath (fieldPath path "path") "must be a canonical repository-relative file path"
  let encoding ← requiredString record "encoding" path
  addIssueIf (encoding.any (· ≠ js "utf-8")) .invalidState (fieldPath path "encoding")
    "must equal 'utf-8'"
  let bom ← enumString record "bom" path ["none", "utf-8"]
  let text ← requiredText record "text" path
  let byteLength ← requiredInteger record "byteLength" path
  let utf16Length ← requiredInteger record "utf16Length" path
  let sha256 ← requiredString record "sha256" path
  let lineEnding ← enumString record "lineEnding" path ["none", "lf", "cr", "crlf", "mixed"]
  let rootNodeId ← requiredIdentifier record "rootNodeId" path
  validateParseState (get record (js "parseState")) (fieldPath path "parseState")
  text.forM fun text =>
    validateSourceText path text { bom, byteLength, utf16Length, sha256, lineEnding }
  match id, sourcePath, text, rootNodeId with
  | some id, some path, some text, some rootNodeId =>
    return some { id, path, text, rootNodeId, positions := buildSourcePositionIndex text }
  | _, _, _, _ => return none

/-! ## A range by itself -/

/-- The sources that a validated one gives. -/
def singleSource : Option SourceFacts → Sources
  | none => .empty
  | some facts => OrderedMap.empty.set facts.id facts

def validateSourceRangeValue (source input : JsValue) : Validated (Option SourceRange) :=
  match jsonIssues (js "$.source") 0 source ++ jsonIssues (js "$.range") 0 input with
  | [] => do
    let facts ← validateSource source (js "$.source")
    validateRange input (js "$.range") (singleSource facts)
  | issues => ⟨none, issues⟩

def validateSourceRange (source input : JsValue) :
    Except (List InstructionIrValidationIssue) JsValue :=
  let result := validateSourceRangeValue source input
  if result.issues = [] ∧ result.value.isSome then .ok input else .error (bounded result.issues)

end IrValidation

end AgentContextLint
