import AgentContextLint.Core.SourcePositions
import AgentContextLint.Lib.Bisect
import AgentContextLint.Lib.Sha256
import AgentContextLint.Lib.Utf8
import Mathlib.Data.Nat.Digits.Defs

/-!
# The import lexer

Model of `packages/syntax/src/import-lexer.ts`: the references of one document, in the order
of its text. The Markdown parse that qualifies regions is a parameter,
`extractMarkdownContent`; it may also fail.

The scan of the source runs over an index and looks back; here it runs over the rest of the
text, with the units before it in reverse and the number of units to pass over.
-/

namespace AgentContextLint

open Utf16

/-! ## Contracts -/

inductive AstNodeKind
  | root
  | heading
  | paragraph
  | list
  | listItem
  | blockQuote
  | codeBlock
  | inlineCode
  | link
  | htmlComment
  | frontmatter
  | text
  | unknown
  deriving DecidableEq

structure AstNode where
  id : Text
  kind : AstNodeKind
  range : SourceRange
  childIds : List Text

/-- What the lexer reads of a Markdown parse. -/
structure MarkdownExtractionResult where
  rootNodeId : Text
  nodes : List AstNode

inductive ImportDialect
  | claudeCode
  | copilotCli
  | cursorAgent
  | geminiCli
  deriving DecidableEq

def ImportDialect.text : ImportDialect → Text
  | .claudeCode => js "claude-code"
  | .copilotCli => js "copilot-cli"
  | .cursorAgent => js "cursor-agent"
  | .geminiCli => js "gemini-cli"

inductive ImportKind
  | vendorImport
  | markdownLink
  | referenceToken
  deriving DecidableEq

inductive ImportTargetKind
  | repositoryPathCandidate
  | absolutePathCandidate
  | url
  | fragment
  | malformed
  | unknown
  deriving DecidableEq

inductive ImportState
  | recognized
  | malformed
  | ambiguous
  deriving DecidableEq

inductive Uncertainty
  | known
  | conditional (conditions : List String)
  | unknown (reason : String)
  | contradiction (reason : String) (alternatives : List (String × String))
  deriving DecidableEq

structure ImportReference where
  id : Text
  documentId : Text
  nodeId : Text
  kind : ImportKind
  range : SourceRange
  specifierRange : SourceRange
  rawSpecifier : Text
  targetKind : ImportTargetKind
  state : ImportState
  uncertainty : Uncertainty
  deriving DecidableEq

inductive ImportLexerErrorCode
  | invalidInput
  | invalidLimit
  | resourceLimit

structure ImportLexerError where
  code : ImportLexerErrorCode
  message : String
  limitName : Option String

/-- What lexing throws: an error of its own, or what the Markdown parse threw. -/
inductive ImportLexFailure
  | lexer (error : ImportLexerError)
  | markdown

structure ImportLexerInput where
  documentId : Text
  sourceId : Text
  syntaxName : ImportDialect
  text : Text

structure ImportLexerOptions where
  maxImports : Nat
  maxSpecifierUtf16CodeUnits : Nat

/-- `DEFAULT_IMPORT_LEXER_LIMITS` -/
def defaultImportLexerLimits : ImportLexerOptions where
  maxImports := 4096
  maxSpecifierUtf16CodeUnits := 4096

namespace ImportLexer

def fail {α : Type} (code : ImportLexerErrorCode) (message : String) (limitName : Option String) :
    Except ImportLexFailure α :=
  .error (.lexer { code, message, limitName })

def invalidInput {α : Type} (message : String) : Except ImportLexFailure α :=
  fail .invalidInput message none

/-! ## Identifiers -/

def isAsciiLetter (u : CodeUnit) : Bool :=
  (0x41 ≤ u.toNat && u.toNat ≤ 0x5a) || (0x61 ≤ u.toNat && u.toNat ≤ 0x7a)

def isAsciiDigit (u : CodeUnit) : Bool := 0x30 ≤ u.toNat && u.toNat ≤ 0x39

/-- `[A-Za-z0-9]` -/
def isAlphanumeric (u : CodeUnit) : Bool := isAsciiLetter u || isAsciiDigit u

/-- One of `.`, `_`, `:`, `/` and `-`. -/
def isIdentifierSeparator (u : CodeUnit) : Bool :=
  u == 0x2e || u == 0x5f || u == 0x3a || u == 0x2f || u == 0x2d

/-- The rest of `STABLE_IDENTIFIER`, runs of alphanumeric units with single separators
between them: inside a run, or else at the start of one. -/
def isStableIdentifierFrom : (inRun : Bool) → Text → Bool
  | inRun, [] => inRun
  | inRun, u :: rest =>
    if isAlphanumeric u then isStableIdentifierFrom true rest
    else inRun && isIdentifierSeparator u && isStableIdentifierFrom false rest

/-- `STABLE_IDENTIFIER`, within the bound on its length. The empty text is none. -/
def isStableIdentifier (value : Text) : Bool :=
  decide (value.length ≤ 512) && isStableIdentifierFrom false value

def stableIdentifier (value : Text) (name : String) : Except ImportLexFailure Unit :=
  if isStableIdentifier value then .ok ()
  else invalidInput (name ++ " must be a bounded B03 stable identifier")

def validateInput (input : ImportLexerInput) : Except ImportLexFailure Unit := do
  stableIdentifier input.documentId "input.documentId"
  stableIdentifier input.sourceId "input.sourceId"

/-! ## Positions -/

/-- A byte offset is missing inside a surrogate pair. -/
structure PositionIndex where
  byteOffsets : List (Option Nat)
  lineStarts : List Nat

def unitBytes (u : CodeUnit) : Nat := if u.toNat ≤ 0x7f then 1 else if u.toNat ≤ 0x7ff then 2 else 3

def byteOffsetsFrom (byteOffset : Nat) : Text → List (Option Nat)
  | [] => []
  | [u] => if isHighSurrogate u then [none] else [some (byteOffset + unitBytes u)]
  | u :: v :: rest =>
    if isHighSurrogate u then none :: some (byteOffset + 4) :: byteOffsetsFrom (byteOffset + 4) rest
    else some (byteOffset + unitBytes u) :: byteOffsetsFrom (byteOffset + unitBytes u) (v :: rest)

def lineStartsFrom (utf16Offset : Nat) : Text → List Nat
  | [] => []
  | [u] =>
    if isHighSurrogate u then [] else if u = 0x0a ∨ u = 0x0d then [utf16Offset + 1] else []
  | u :: v :: rest =>
    if isHighSurrogate u then lineStartsFrom (utf16Offset + 2) rest
    else if u = 0x0a ∨ (u = 0x0d ∧ v ≠ 0x0a) then
      (utf16Offset + 1) :: lineStartsFrom (utf16Offset + 1) (v :: rest)
    else lineStartsFrom (utf16Offset + 1) (v :: rest)

def buildPositionIndex (text : Text) : PositionIndex where
  byteOffsets := some 0 :: byteOffsetsFrom 0 text
  lineStarts := 0 :: lineStartsFrom 0 text

/-- `lineStarts[middle] <= utf16Offset` -/
def startsAtOrBefore (lineStarts : List Nat) (utf16Offset middle : Nat) : Bool :=
  match lineStarts[middle]? with
  | some candidate => candidate ≤ utf16Offset
  | none => false

def positionAt (index : PositionIndex) (utf16Offset : Nat) :
    Except ImportLexFailure SourcePosition :=
  match index.byteOffsets[utf16Offset]? with
  | some (some byteOffset) =>
    let low := Bisect.bisect (startsAtOrBefore index.lineStarts utf16Offset)
      index.lineStarts.length
    match low with
    | 0 => invalidInput "could not derive source position"
    | line + 1 =>
      match index.lineStarts[line]? with
      | none => invalidInput "could not derive source position"
      | some lineStart =>
        .ok { byteOffset, utf16Offset, line, utf16Column := utf16Offset - lineStart }
  | _ => invalidInput "an import boundary splits a Unicode scalar value"

def makeRange (sourceId : Text) (positions : PositionIndex) (start stop : Nat) :
    Except ImportLexFailure SourceRange := do
  let start ← positionAt positions start
  let stop ← positionAt positions stop
  return { sourceId, start, stop }

/-! ## Tokens -/

def isWhitespace (u : CodeUnit) : Bool :=
  let unit := u.toNat
  (0x09 ≤ unit && unit ≤ 0x0d) || unit == 0x20 || unit == 0xa0 || unit == 0x1680 ||
    (0x2000 ≤ unit && unit ≤ 0x200a) || unit == 0x2028 || unit == 0x2029 || unit == 0x202f ||
    unit == 0x205f || unit == 0x3000 || unit == 0xfeff

/-- Whether the unit behind `before` (in reverse) is escaped. -/
def isEscaped (before : Text) : Bool := (before.takeWhile (· == 0x5c)).length % 2 == 1

def hasTokenBoundary (before : Text) (syntaxName : ImportDialect) : Bool :=
  match before with
  | [] => true
  | previous :: earlier =>
    if isWhitespace previous then true
    else if syntaxName = .cursorAgent ∧ previous = 0x5c then
      (earlier.head?.map isWhitespace).getD true
    else if syntaxName = .geminiCli then false
    else previous == 0x28 || previous == 0x5b || previous == 0x60 || previous == 0x7b ||
      previous == 0x3c

def canStartSpecifier (unit : CodeUnit) (syntaxName : ImportDialect) : Bool :=
  if syntaxName = .geminiCli then unit == 0x2e || unit == 0x2f || isAsciiLetter unit
  else unit == 0x2e || unit == 0x2f || unit == 0x5c || unit == 0x7e || isAsciiLetter unit ||
    isAsciiDigit unit || (syntaxName == .cursorAgent && (unit == 0x22 || unit == 0x27))

/-- The loop of `hasUrlScheme` behind the first letter. -/
def hasUrlSchemeFrom : Text → Bool
  | [] => false
  | u :: rest =>
    if u = 0x3a then rest.take 2 == [0x2f, 0x2f]
    else if isAsciiLetter u || isAsciiDigit u || u == 0x2b || u == 0x2d || u == 0x2e then
      hasUrlSchemeFrom rest
    else false

def hasUrlScheme : Text → Bool
  | [] => false
  | u :: rest => isAsciiLetter u && hasUrlSchemeFrom rest

/-- The loop of `classifyTarget`: the kind of the first unit outside printable ASCII. -/
def unprintableKind : Text → Option ImportTargetKind
  | [] => none
  | u :: rest =>
    if u.toNat < 0x20 ∨ u.toNat = 0x7f then some .malformed
    else if u.toNat > 0x7e then some .unknown
    else unprintableKind rest

def classifyTarget (raw : Text) : ImportTargetKind :=
  match unprintableKind raw with
  | some kind => kind
  | none =>
    if hasUrlScheme raw then .url
    else if raw.head? = some 0x2f ∨ raw.take 2 = [0x5c, 0x5c] ∨ raw.take 2 = js "~/" ∨
        ((raw.head?.map isAsciiLetter).getD false ∧ raw[1]? = some 0x3a) then
      .absolutePathCandidate
    else if raw.contains 0x40 ∨ raw.head? = some 0x22 ∨ raw.head? = some 0x27 then .unknown
    else .repositoryPathCandidate

def hasAmbiguousPunctuation (raw : Text) : Bool :=
  match raw.getLast? with
  | none => false
  | some last =>
    last == 0x21 || last == 0x22 || last == 0x27 || last == 0x29 || last == 0x2c ||
      last == 0x3a || last == 0x3b || last == 0x3e || last == 0x3f || last == 0x5d || last == 0x7d

def contradiction : Uncertainty :=
  .contradiction "Gemini documentation and pinned source disagree about code-region recognition"
    [("documented-marked-regions", "Treat the region as code"),
      ("source-matched-backticks", "Scan the region for imports")]

structure Classification where
  state : ImportState
  targetKind : ImportTargetKind
  uncertainty : Uncertainty

def classifyCandidate (raw : Text) (syntaxName : ImportDialect)
    (ambiguousRegion contradictoryRegion : Bool) : Classification :=
  let targetKind := classifyTarget raw
  if targetKind = .malformed then { state := .malformed, targetKind, uncertainty := .known }
  else if syntaxName = .cursorAgent then {
    state := .ambiguous, targetKind
    uncertainty := .unknown "Cursor does not document exact @ reference tokenization" }
  else if ambiguousRegion then {
    state := .ambiguous, targetKind
    uncertainty := .unknown
      "The selected syntax does not document reference handling in this region" }
  else if contradictoryRegion then { state := .ambiguous, targetKind, uncertainty := contradiction }
  else if targetKind = .unknown ∨ hasAmbiguousPunctuation raw then {
    state := .ambiguous, targetKind
    uncertainty := .unknown
      "The selected syntax does not define this @ token boundary precisely" }
  else if syntaxName ≠ .geminiCli ∧ ¬ raw.contains 0x2f ∧ ¬ raw.contains 0x5c ∧
      ¬ raw.contains 0x2e then {
    state := .ambiguous, targetKind
    uncertainty := .unknown "A bare @ name can be prose or a file reference" }
  else { state := .recognized, targetKind, uncertainty := .known }

/-! ## Markdown regions -/

inductive Disposition
  | ambiguous
  | contradiction
  | exclude
  deriving DecidableEq

structure DispositionRange where
  start : Nat
  stop : Nat
  disposition : Disposition

/-- The loop of `codeFenceMarker` on the units of the node. -/
def codeFenceMarkerIn : Text → Option CodeUnit
  | [] => none
  | unit :: rest =>
    if unit = 0x60 ∨ unit = 0x7e then some unit
    else if unit = 0x20 ∨ unit = 0x09 ∨ unit = 0x3e ∨ unit = 0x2d ∨ isAsciiDigit unit then
      codeFenceMarkerIn rest
    else none

def codeFenceMarker (text : Text) (node : AstNode) : Option CodeUnit :=
  let start := node.range.start.utf16Offset
  codeFenceMarkerIn ((text.drop start).take (node.range.stop.utf16Offset - start))

def regionDisposition (text : Text) (node : AstNode) (syntaxName : ImportDialect) :
    Option Disposition :=
  let code := node.kind = .inlineCode ∨ node.kind = .codeBlock
  let comment := node.kind = .htmlComment
  if ¬ code ∧ ¬ comment then none
  else if syntaxName = .claudeCode then some .exclude
  else if syntaxName = .geminiCli then
    if node.kind = .inlineCode then some .exclude
    else if node.kind = .codeBlock then
      if codeFenceMarker text node = some 0x60 then some .exclude else some .contradiction
    else none
  else some .ambiguous

def buildDispositionRanges (text : Text) (nodes : List AstNode) (syntaxName : ImportDialect) :
    List DispositionRange :=
  nodes.filterMap fun node => (regionDisposition text node syntaxName).map fun disposition =>
    { start := node.range.start.utf16Offset, stop := node.range.stop.utf16Offset, disposition }

def containingDisposition (ranges : List DispositionRange) (start : Nat) : Option Disposition :=
  let low := Bisect.bisect
    (fun middle => match ranges[middle]? with
      | some range => range.start ≤ start
      | none => false)
    ranges.length
  match low with
  | 0 => none
  | last + 1 => (ranges[last]?).bind fun range =>
    if range.start ≤ start ∧ range.stop > start then some range.disposition else none

/-- `nodeMap(nodes).get(id)`: the last node of this id. -/
def nodeById (nodes : List AstNode) (id : Text) : Option AstNode :=
  nodes.reverse.find? (·.id = id)

/-- The child that a round of `deepestContainingNode` descends to. -/
def containingChild (nodes : List AstNode) (current : AstNode) (start stop : Nat) :
    Option AstNode :=
  let low := Bisect.bisect
    (fun middle => match (current.childIds[middle]?).bind (nodeById nodes) with
      | some child => child.range.start.utf16Offset ≤ start
      | none => false)
    current.childIds.length
  match low with
  | 0 => none
  | last + 1 => ((current.childIds[last]?).bind (nodeById nodes)).bind fun child =>
    if child.range.start.utf16Offset > start ∨ child.range.stop.utf16Offset < stop then none
    else some child

/-- The loop of `deepestContainingNode`. A tree is no deeper than it has nodes. -/
def descend (nodes : List AstNode) (start stop : Nat) : (fuel : Nat) → AstNode → AstNode
  | 0, current => current
  | fuel + 1, current =>
    match containingChild nodes current start stop with
    | none => current
    | some child => descend nodes start stop fuel child

def deepestContainingNode (markdown : MarkdownExtractionResult) (start stop : Nat) :
    Except ImportLexFailure AstNode :=
  match nodeById markdown.nodes markdown.rootNodeId with
  | none => invalidInput "Markdown root node is unavailable"
  | some root => .ok (descend markdown.nodes start stop markdown.nodes.length root)

/-! ## Candidates -/

structure Candidate where
  start : Nat
  specifierStart : Nat
  stop : Nat
  raw : Text
  state : ImportState
  targetKind : ImportTargetKind
  uncertainty : Uncertainty

/-- The specifier at the head of the text, up to white space. -/
def specifierAt (text : Text) : Text := text.takeWhile (!isWhitespace ·)

def specifierTooLong {α : Type} (limits : ImportLexerOptions) : Except ImportLexFailure α :=
  fail .resourceLimit
    ("import specifier exceeds maxSpecifierUtf16CodeUnits (" ++
      toString limits.maxSpecifierUtf16CodeUnits ++ ")")
    (some "maxSpecifierUtf16CodeUnits")

def tooManyImports {α : Type} (limits : ImportLexerOptions) : Except ImportLexFailure α :=
  fail .resourceLimit
    ("emitted import candidate count exceeds maxImports (" ++ toString limits.maxImports ++ ")")
    (some "maxImports")

def makeCandidate (syntaxName : ImportDialect) (index : Nat) (raw : Text) (escaped : Bool)
    (disposition : Option Disposition) : Candidate :=
  let classified := classifyCandidate raw syntaxName (escaped || disposition == some .ambiguous)
    (disposition == some .contradiction)
  { start := index, specifierStart := index + 1, stop := index + 1 + raw.length, raw
    state := classified.state, targetKind := classified.targetKind
    uncertainty := classified.uncertainty }

/-- The loop of `scanCandidates` at `index`, behind the units `before` (in reverse), with
`count` candidates so far and `skip` units still to pass over. -/
def scanFrom (syntaxName : ImportDialect) (ranges : List DispositionRange)
    (limits : ImportLexerOptions) :
    (count skip index : Nat) → (before : Text) → Text →
      Except ImportLexFailure (List Candidate)
  | _, _, _, _, [] => .ok []
  | count, skip + 1, index, before, unit :: rest =>
    scanFrom syntaxName ranges limits count skip (index + 1) (unit :: before) rest
  | count, 0, index, before, unit :: rest =>
    let next := fun skip =>
      scanFrom syntaxName ranges limits count skip (index + 1) (unit :: before) rest
    let escaped := isEscaped before
    let raw := specifierAt rest
    if unit ≠ 0x40 ∨ ¬ hasTokenBoundary before syntaxName then next 0
    else if escaped ∧ syntaxName ≠ .cursorAgent then next 0
    else if ¬ (rest.head?.map (canStartSpecifier · syntaxName)).getD false then next 0
    else if raw.length > limits.maxSpecifierUtf16CodeUnits then specifierTooLong limits
    else
      let disposition := containingDisposition ranges index
      if disposition = some .exclude then next raw.length
      else if count ≥ limits.maxImports then tooManyImports limits
      else (makeCandidate syntaxName index raw escaped disposition :: ·) <$>
        scanFrom syntaxName ranges limits (count + 1) raw.length (index + 1) (unit :: before) rest

def scanCandidates (input : ImportLexerInput) (markdown : MarkdownExtractionResult)
    (limits : ImportLexerOptions) : Except ImportLexFailure (List Candidate) :=
  scanFrom input.syntaxName (buildDispositionRanges input.text markdown.nodes input.syntaxName)
    limits 0 0 0 [] input.text

/-! ## References -/

/-- `index.toString(36).padStart(3, "0")` -/
def paddedBase36 (index : Nat) : Text :=
  let digit (n : Nat) : CodeUnit := if n < 10 then .ofNat (0x30 + n) else .ofNat (0x57 + n)
  let digits := ((Nat.digits 36 index).map digit).reverse
  List.replicate (3 - digits.length) 0x30 ++ digits

def referenceIdentityInput (input : ImportLexerInput) : List UInt8 :=
  Utf8.encode input.documentId ++ 0 :: Utf8.encode input.syntaxName.text ++
    0 :: Utf8.encode input.sourceId ++ 0 :: Utf8.encode input.text

def makeReference (input : ImportLexerInput) (markdown : MarkdownExtractionResult)
    (positions : PositionIndex) (identity : Text) (candidate : Candidate) (index : Nat) :
    Except ImportLexFailure ImportReference := do
  let owner ← deepestContainingNode markdown candidate.start candidate.stop
  let range ← makeRange input.sourceId positions candidate.start candidate.stop
  let specifierRange ← makeRange input.sourceId positions candidate.specifierStart candidate.stop
  return {
    id := js "import:" ++ identity ++ js ":" ++ paddedBase36 index
    documentId := input.documentId
    nodeId := owner.id
    kind := if input.syntaxName = .cursorAgent then .referenceToken else .vendorImport
    range, specifierRange
    rawSpecifier := candidate.raw
    targetKind := candidate.targetKind
    state := candidate.state
    uncertainty := candidate.uncertainty }

/-- `lexImportReferences` with its default limits, as every caller uses it. -/
def lexImportReferences
    (extractMarkdownContent : (sourceId text : Text) → Option MarkdownExtractionResult)
    (input : ImportLexerInput) : Except ImportLexFailure (List ImportReference) := do
  validateInput input
  match extractMarkdownContent input.sourceId input.text with
  | none => .error .markdown
  | some markdown =>
    let positions := buildPositionIndex input.text
    let candidates ← scanCandidates input markdown defaultImportLexerLimits
    let identity := Sha256.sha256Hex (referenceIdentityInput input)
    candidates.zipIdx.mapM fun (candidate, index) =>
      makeReference input markdown positions identity candidate index

end ImportLexer

end AgentContextLint
