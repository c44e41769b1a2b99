import AgentContextLint.Core.ConfigurationContracts
import AgentContextLint.Lib.OrderedMap
import AgentContextLint.Lib.UnitPattern
import AgentContextLint.Syntax.ImportLexer

/-!
# The command lexer

Model of `packages/evidence/src/command-lexer.ts`: command-shaped text cut into words,
operators and redirections, without evaluating anything.

`text`, `limits` and the dialect never change during a scan and are parameters of it; the rest
of `ScanState` is passed along. A loop over an index runs on fuel, the length of the text, which
it cannot use up before the index is past the end. `stop` is the `end` of a range, a keyword
here. The lower-case mapping of Unicode is a parameter; only the executable's name uses it.
-/

namespace AgentContextLint

open Utf16 Metered

/-! ## Contracts -/

inductive CommandDialect
  | auto
  | posixShell
  | windowsCmd
  | windowsPowershell

inductive ResolvedCommandDialect
  | posixShell
  | windowsCmd
  | windowsPowershell
  deriving DecidableEq

def ResolvedCommandDialect.text : ResolvedCommandDialect → String
  | .posixShell => "posix-shell"
  | .windowsCmd => "windows-cmd"
  | .windowsPowershell => "windows-powershell"

inductive CommandPartKind
  | backtickSubstitution
  | commandSubstitution
  | doubleQuoted
  | escape
  | literal
  | singleQuoted
  | variableExpansion

inductive CommandTokenKind
  | environmentAssignment
  | operator
  | redirection
  | word
  deriving DecidableEq

inductive CommandSourceKind
  | caller
  | configuration
  | evidenceFact

structure CommandEvidenceProvenance where
  collectorId : Text
  factId : Option Text
  source : ConfigurationSourceLocation
  sourceKind : CommandSourceKind

structure CommandLexerInput where
  dialect : CommandDialect
  provenance : CommandEvidenceProvenance
  text : Text

structure CommandLexerLimits where
  maximumInputLength : Nat
  maximumInvocations : Nat
  maximumIssues : Nat
  maximumNesting : Nat
  maximumParts : Nat
  maximumTokens : Nat
  deriving DecidableEq

/-- The limits as a caller gives them. -/
structure CommandLexerOptions where
  maximumInputLength : Option Int := none
  maximumInvocations : Option Int := none
  maximumIssues : Option Int := none
  maximumNesting : Option Int := none
  maximumParts : Option Int := none
  maximumTokens : Option Int := none

/-- `COMMAND_LEXER_DEFAULT_LIMITS` -/
def commandLexerDefaultLimits : CommandLexerLimits where
  maximumInputLength := 65536
  maximumInvocations := 4096
  maximumIssues := 1024
  maximumNesting := 64
  maximumParts := 32768
  maximumTokens := 16384

/-- `COMMAND_LEXER_HARD_LIMITS` -/
def commandLexerHardLimits : CommandLexerLimits where
  maximumInputLength := 1048576
  maximumInvocations := 65536
  maximumIssues := 16384
  maximumNesting := 256
  maximumParts := 524288
  maximumTokens := 262144

structure CommandWordPart where
  kind : CommandPartKind
  raw : Text
  start : Nat
  stop : Nat
  value : Option Text

structure CommandToken where
  kind : CommandTokenKind
  parts : List CommandWordPart
  raw : Text
  start : Nat
  stop : Nat
  value : Option Text

structure CommandRedirectionEvidence where
  operator : Text
  raw : Text
  start : Nat
  stop : Nat
  target : Option Text

inductive CommandInvocationState
  | dynamic
  | empty
  | literal
  | malformed
  deriving DecidableEq

structure CommandInvocationEvidence where
  arguments : List (Option Text)
  environment : OrderedMap Text Text
  executable : Option Text
  redirections : List CommandRedirectionEvidence
  start : Nat
  stop : Nat
  state : CommandInvocationState

inductive CommandIssueCode
  | ambiguousDialect
  | malformedSyntax
  deriving DecidableEq

structure CommandLexerIssue where
  code : CommandIssueCode
  message : Text
  start : Nat
  stop : Nat

inductive CommandConfidenceBasis
  | callerSpecified
  | exclusiveMarkers
  | insufficientMarkers
  | mixedMarkers

structure CommandLexerResult where
  /-- The basis determines the level and the score. -/
  confidence : CommandConfidenceBasis
  invocations : List CommandInvocationEvidence
  issues : List CommandLexerIssue
  limits : CommandLexerLimits
  partCount : Nat
  provenance : CommandEvidenceProvenance
  requestedDialect : CommandDialect
  resolvedDialect : Option ResolvedCommandDialect
  tokens : List CommandToken
  uncertainty : Uncertainty

inductive CommandLexerErrorCode
  | invalidInput
  | invalidOptions
  | limitExceeded
  deriving DecidableEq

structure CommandLexerError where
  code : CommandLexerErrorCode
  message : String
  limitName : Option String
  deriving DecidableEq

namespace CommandLexer

/-! ## Input and options -/

def failInput (message : String) : CommandLexerError := ⟨.invalidInput, message, none⟩

/-- `IDENTIFIER` -/
def identifier : Pattern CodeUnit :=
  let alphanumerics := Pattern.plus (.unit UnitPattern.isAlphanumeric)
  .seq alphanumerics (.star (.seq (UnitPattern.oneOf "._:/-") alphanumerics))

def boundedIdentifier (value : Text) : Bool :=
  value.length ≠ 0 ∧ value.length ≤ 512 ∧ identifier.matchesAll value

def validateLocation (source : ConfigurationSourceLocation) :
    Except CommandLexerError ConfigurationSourceLocation := do
  let path ← (RepositoryPath.canonicalizeRepositoryRelativePath source.path .posix).mapError fun _ =>
    failInput "input.provenance.source.path must be canonical and repository-relative"
  refuseIf (source.stop.byteOffset < source.start.byteOffset ∨
      source.stop.utf16Offset < source.start.utf16Offset)
    (failInput "input.provenance.source.range must not be reversed")
  pure { source with path }

def validateInput (input : CommandLexerInput) : Except CommandLexerError CommandLexerInput := do
  refuseIf (boundedIdentifier input.provenance.collectorId = false)
    (failInput "input.provenance.collectorId must be a bounded stable identifier")
  refuseIf (input.provenance.factId.all boundedIdentifier = false)
    (failInput "input.provenance.factId must be a bounded stable identifier or null")
  let source ← validateLocation input.provenance.source
  pure { input with provenance := { input.provenance with source } }

def validateOption (key : String) (candidate : Option Int) (default hard : Nat) :
    Except CommandLexerError Nat := do
  let value := candidate.getD default
  refuseIf (value < 1 ∨ (hard : Int) < value)
    ⟨.invalidOptions,
      key ++ " must be a positive safe integer no greater than " ++ toString hard, some key⟩
  pure value.toNat

def validateOptions (options : CommandLexerOptions) :
    Except CommandLexerError CommandLexerLimits := do
  let maximumInputLength ← validateOption "maximumInputLength" options.maximumInputLength
    commandLexerDefaultLimits.maximumInputLength commandLexerHardLimits.maximumInputLength
  let maximumInvocations ← validateOption "maximumInvocations" options.maximumInvocations
    commandLexerDefaultLimits.maximumInvocations commandLexerHardLimits.maximumInvocations
  let maximumIssues ← validateOption "maximumIssues" options.maximumIssues
    commandLexerDefaultLimits.maximumIssues commandLexerHardLimits.maximumIssues
  let maximumNesting ← validateOption "maximumNesting" options.maximumNesting
    commandLexerDefaultLimits.maximumNesting commandLexerHardLimits.maximumNesting
  let maximumParts ← validateOption "maximumParts" options.maximumParts
    commandLexerDefaultLimits.maximumParts commandLexerHardLimits.maximumParts
  let maximumTokens ← validateOption "maximumTokens" options.maximumTokens
    commandLexerDefaultLimits.maximumTokens commandLexerHardLimits.maximumTokens
  pure ⟨maximumInputLength, maximumInvocations, maximumIssues, maximumNesting, maximumParts,
    maximumTokens⟩

def limit (name : String) : CommandLexerError :=
  ⟨.limitExceeded, name ++ " was exceeded", some name⟩

/-! ## Units and patterns -/

def backslash : CodeUnit := 0x5c
def backtick : CodeUnit := 0x60
def caret : CodeUnit := 0x5e
def doubleQuote : CodeUnit := 0x22
def singleQuote : CodeUnit := 0x27

def isSpace (character : CodeUnit) : Bool :=
  character == 0x20 || character == 0x09 || character == 0x0d || character == 0x0a

open UnitPattern in
/-- `REDIRECTION` -/
def redirection : Pattern CodeUnit :=
  let digits := Pattern.plus (.unit isDigit)
  .seq (.optional (.either digits (literal "*")))
    (.seq (.either (.seq (literal ">") (.optional (literal ">")))
        (.seq (literal "<") (.optional (literal "<"))))
      (.optional (.seq (literal "&") digits)))

open UnitPattern in
/-- `CMD_EXPANSION` -/
def cmdExpansion : Pattern CodeUnit :=
  .either (.seq (literal "%") (.seq (.plus (noneOf "%\r\n")) (literal "%")))
    (.seq (literal "!") (.seq (.plus (noneOf "!\r\n")) (literal "!")))

open UnitPattern in
/-- `POSIX_EXPANSION` -/
def posixExpansion : Pattern CodeUnit :=
  let name : Pattern CodeUnit :=
    .seq (.unit (folded fun u => isLetter u || u == 0x5f)) (.star (.unit (folded isWordUnit)))
  .seq (literal "$") (.anyOf [.seq (foldedLiteral "env:") name, name,
    .seq (literal "\x7b") (.seq (.plus (noneOf "\x7d\r\n")) (literal "\x7d"))])

open UnitPattern in
/-- What makes a double-quoted part dynamic outside `windows-cmd`. -/
def quotedExpansion : Pattern CodeUnit :=
  .seq (literal "$") (.anyOf [literal "(", literal "\x7b", .unit fun u => isLetter u || u == 0x5f])

open UnitPattern in
/-- What makes a double-quoted part dynamic in `windows-cmd`. -/
def cmdQuotedExpansion : Pattern CodeUnit :=
  .either (.seq (literal "%") (.seq (.plus (noneOf "%")) (literal "%")))
    (.seq (literal "!") (.seq (.plus (noneOf "!")) (literal "!")))

open UnitPattern in
def assignment : Pattern CodeUnit :=
  .seq (.unit fun u => isLetter u || u == 0x5f) (.seq (.star (.unit isWordUnit)) (literal "="))

/-! ## The state of a scan -/

structure ScanState where
  issues : List CommandLexerIssue
  tokens : List CommandToken
  partCount : Nat

/-- The locals of `scanWord` with the state it writes to. -/
structure Word where
  state : ScanState
  parts : List CommandWordPart
  index : Nat
  literalStart : Nat

/-- `text.slice(start, end)` -/
def slice (text : Text) (start stop : Nat) : Text := (text.take stop).drop start

section Scan

variable (text : Text) (limits : CommandLexerLimits)

/-- `text.startsWith(candidate, index)` -/
def startsWith (candidate : Text) (index : Nat) : Bool :=
  candidate.isPrefixOf (text.drop index)

variable (state : ScanState)

def issue (start stop : Nat) (message : Text) (code : CommandIssueCode) :
    Except CommandLexerError ScanState := do
  refuseIf (limits.maximumIssues ≤ state.issues.length) (limit "maximumIssues")
  pure { state with issues := state.issues ++ [⟨code, message, start, stop⟩] }

variable (word : Word)

def part (kind : CommandPartKind) (start stop : Nat) (value : Option Text) :
    Except CommandLexerError Word := do
  refuseIf (limits.maximumParts ≤ word.state.partCount) (limit "maximumParts")
  pure { word with
    state := { word.state with partCount := word.state.partCount + 1 }
    parts := word.parts ++ [⟨kind, slice text start stop, start, stop, value⟩] }

def pushToken (token : CommandToken) : Except CommandLexerError ScanState := do
  refuseIf (limits.maximumTokens ≤ state.tokens.length) (limit "maximumTokens")
  pure { state with tokens := state.tokens ++ [token] }

/-! ## Readers -/

/-- The loop of `readBalanced`: the index behind the mark that closes the expression. -/
def balancedStop (opening closing : Text) :
    Nat → Nat → Option CodeUnit → Nat → Except CommandLexerError (Option Nat)
  | 0, _, _, _ => .ok none
  | fuel + 1, depth, quote, index =>
    match text[index]?, quote with
    | none, _ => .ok none
    | some character, some mark =>
      balancedStop opening closing fuel depth (if character = mark then none else some mark)
        (if character = backslash ∧ mark = doubleQuote then index + 2 else index + 1)
    | some character, none =>
      if character = singleQuote ∨ character = doubleQuote then
        balancedStop opening closing fuel depth (some character) (index + 1)
      else if startsWith text opening index then
        if limits.maximumNesting < depth + 1 then .error (limit "maximumNesting")
        else balancedStop opening closing fuel (depth + 1) none (index + opening.length)
      else if startsWith text closing index then
        if depth = 1 then .ok (some (index + closing.length))
        else balancedStop opening closing fuel (depth - 1) none (index + closing.length)
      else balancedStop opening closing fuel depth none (index + 1)

def readBalanced (start : Nat) (opening closing : Text) :
    Except CommandLexerError (Nat × ScanState) := do
  match ← balancedStop text limits opening closing text.length 1 none (start + opening.length) with
  | some index => pure (index, state)
  | none =>
    let state ← issue limits state start text.length
      (js "unclosed " ++ opening ++ closing ++ js " expression") .malformedSyntax
    pure (text.length, state)

def operatorAt (index : Nat) : Option Text :=
  [js "&&", js "||", js "|", js ";", js "&", js "(", js ")"].find? fun candidate =>
    startsWith text candidate index

def redirectionAt (index : Nat) : Option Text := redirection.matched (text.drop index)

def expansionAt (index : Nat) (dialect : ResolvedCommandDialect) : Option Text :=
  (if dialect = .windowsCmd then cmdExpansion else posixExpansion).matched (text.drop index)

def literalPartValue (parts : List CommandWordPart) : Option Text :=
  (parts.mapM CommandWordPart.value).map List.flatten

/-! ## Words -/

def flushLiteral (stop : Nat) : Except CommandLexerError Word :=
  if word.literalStart < stop then
    part text limits word .literal word.literalStart stop (some (slice text word.literalStart stop))
  else .ok word

variable (dialect : ResolvedCommandDialect) (quote : CodeUnit)

/-- The index behind the escape marks that the quote loop passes over. -/
def passEscapes (index : Nat) : Nat :=
  let behind :=
    if dialect ≠ .windowsCmd ∧ quote = doubleQuote ∧ text[index]? = some backslash then index + 1
    else index
  if dialect = .windowsPowershell ∧ quote = doubleQuote ∧ text[behind]? = some backtick then
    behind + 1
  else behind

/-- The loop over the content of a quoted part. -/
def quotedStop (dialect : ResolvedCommandDialect) (quote : CodeUnit) : Nat → Nat → Nat
  | 0, index => index
  | fuel + 1, index =>
    match text[index]? with
    | none => index
    | some character =>
      if character = quote then index
      else quotedStop dialect quote fuel (passEscapes text dialect quote index + 1)

/-- The loop over the content of a backtick substitution. -/
def backtickStop : Nat → Nat → Nat
  | 0, index => index
  | fuel + 1, index =>
    match text[index]? with
    | none => index
    | some character =>
      if character = backtick then index
      else backtickStop fuel (if character = backslash then index + 2 else index + 1)

/-- Behind a part the literal text starts anew. -/
def Word.moveTo (index : Nat) : Word := { word with index, literalStart := index }

/-- Close a part whose content ends at `reached`: step over its mark, or report that there is
none. -/
def closeAt (start reached : Nat) (message : Text) : Except CommandLexerError (Nat × Word) :=
  if text.length ≤ reached then do
    let state ← issue limits word.state start reached message .malformedSyntax
    pure (reached, { word with state })
  else .ok (reached + 1, word)

def quotedValue (rawContent : Text) : Option Text :=
  let dynamic := quote = doubleQuote ∧
    ((dialect ≠ .windowsCmd ∧ quotedExpansion.occursIn rawContent) ∨
      (dialect = .windowsCmd ∧ cmdQuotedExpansion.occursIn rawContent))
  if dynamic then none else some rawContent

def scanQuoted (word : Word) : Except CommandLexerError Word := do
  let word ← flushLiteral text limits word word.index
  let quoteStart := word.index
  let contentStart := quoteStart + 1
  let reached := quotedStop text dialect quote text.length contentStart
  let (index, word) ← closeAt text limits word quoteStart reached
    (js "unclosed " ++ [quote] ++ js " quote")
  let rawContent := slice text contentStart
    (max contentStart (index - if text[index - 1]? = some quote then 1 else 0))
  let word ← part text limits word (if quote = singleQuote then .singleQuoted else .doubleQuoted)
    quoteStart index (quotedValue dialect quote rawContent)
  pure (word.moveTo index)

def escapeOf : ResolvedCommandDialect → CodeUnit
  | .windowsCmd => caret
  | .windowsPowershell => backtick
  | .posixShell => backslash

def scanEscape (word : Word) : Except CommandLexerError Word := do
  let word ← flushLiteral text limits word word.index
  let escapeStart := word.index
  let (index, word) ← closeAt text limits word escapeStart (escapeStart + 1) (js "dangling escape")
  let word ← part text limits word .escape escapeStart index
    (some (if index - escapeStart = 2 then (text[index - 1]?).toList else []))
  pure (word.moveTo index)

def scanCommandSubstitution (word : Word) : Except CommandLexerError Word := do
  let word ← flushLiteral text limits word word.index
  let (stop, state) ← readBalanced text limits word.state word.index (js "$(") (js ")")
  let word ← part text limits { word with state } .commandSubstitution word.index stop none
  pure (word.moveTo stop)

def scanBacktickSubstitution (word : Word) : Except CommandLexerError Word := do
  let word ← flushLiteral text limits word word.index
  let substitutionStart := word.index
  let reached := backtickStop text text.length (substitutionStart + 1)
  let (index, word) ← closeAt text limits word substitutionStart reached
    (js "unclosed backtick substitution")
  let word ← part text limits word .backtickSubstitution substitutionStart index none
  pure (word.moveTo index)

def scanExpansion (expansion : Text) (word : Word) : Except CommandLexerError Word := do
  let word ← flushLiteral text limits word word.index
  let stop := word.index + expansion.length
  let word ← part text limits word .variableExpansion word.index stop none
  pure (word.moveTo stop)

def endsWord (index : Nat) (character : CodeUnit) : Bool :=
  isSpace character || (operatorAt text index).isSome || (redirectionAt text index).isSome

/-- One round of the loop of `scanWord`, at a unit that does not end the word. -/
def scanWordUnit (character : CodeUnit) (word : Word) : Except CommandLexerError Word :=
  if character = singleQuote ∨ character = doubleQuote then
    scanQuoted text limits dialect character word
  else if character = escapeOf dialect then scanEscape text limits word
  else if dialect ≠ .windowsCmd ∧ startsWith text (js "$(") word.index then
    scanCommandSubstitution text limits word
  else if dialect = .posixShell ∧ character = backtick then
    scanBacktickSubstitution text limits word
  else
    match expansionAt text word.index dialect with
    | some expansion => scanExpansion text limits expansion word
    | none => .ok { word with index := word.index + 1 }

def scanWordUnits (dialect : ResolvedCommandDialect) : Nat → Word → Except CommandLexerError Word
  | 0, word => .ok word
  | fuel + 1, word =>
    match text[word.index]? with
    | none => .ok word
    | some character =>
      if endsWord text word.index character then .ok word
      else do
        let word ← scanWordUnit text limits dialect character word
        scanWordUnits dialect fuel word

def wordKind (value : Option Text) : CommandTokenKind :=
  if value.any fun value => (assignment.matched value).isSome then .environmentAssignment else .word

def scanWord (state : ScanState) (start : Nat) : Except CommandLexerError (Nat × ScanState) := do
  let word ← scanWordUnits text limits dialect text.length ⟨state, [], start, start⟩
  let word ← flushLiteral text limits word word.index
  let value := literalPartValue word.parts
  let state ← pushToken limits word.state
    ⟨wordKind value, word.parts, slice text start word.index, start, word.index, value⟩
  pure (word.index, state)

/-! ## The scan -/

def scanFrom (dialect : ResolvedCommandDialect) :
    Nat → ScanState → Nat → Except CommandLexerError ScanState
  | 0, state, _ => .ok state
  | fuel + 1, state, index =>
    match text[index]? with
    | none => .ok state
    | some character =>
      if isSpace character then scanFrom dialect fuel state (index + 1)
      else
        match redirectionAt text index, operatorAt text index with
        | some raw, _ => do
          let state ← pushToken limits state
            ⟨.redirection, [], raw, index, index + raw.length, some raw⟩
          scanFrom dialect fuel state (index + raw.length)
        | none, some raw => do
          let state ← pushToken limits state
            ⟨.operator, [], raw, index, index + raw.length, some raw⟩
          scanFrom dialect fuel state (index + raw.length)
        | none, none => do
          let (index, state) ← scanWord text limits dialect state index
          scanFrom dialect fuel state index

def scan (dialect : ResolvedCommandDialect) : Except CommandLexerError ScanState :=
  scanFrom text limits dialect text.length ⟨[], [], 0⟩ 0

end Scan

/-! ## Dialects -/

structure DialectInference where
  confidence : CommandConfidenceBasis
  dialect : Option ResolvedCommandDialect
  uncertainty : Uncertainty
  issue : Option Text

open UnitPattern in
def hasCmdMarkers (text : Text) : Bool :=
  (Pattern.anyOf [.seq (literal "%") (.seq (.plus (noneOf "%\r\n")) (literal "%")),
    .seq (literal "!") (.seq (.plus (noneOf "!\r\n")) (literal "!")),
    .seq (literal "^") (oneOf "&|<>")]).occursIn text

open UnitPattern in
def hasPowershellMarkers (text : Text) : Bool :=
  (foldedLiteral "$env:").occursIn text ||
    occursAsWord (folded isWordUnit) (.anyOf [foldedLiteral "write-host",
      foldedLiteral "get-childitem", foldedLiteral "set-location"]) false text ||
    (Pattern.seq (.unit (· == backtick)) (oneOf "&|<>")).occursIn text

open UnitPattern in
def hasPosixMarkers (text : Text) : Bool :=
  let isBacktick : Pattern CodeUnit := .unit (· == backtick)
  (Pattern.anyOf [literal "$(",
    .seq isBacktick (.seq (.star (.unit (· != backtick))) isBacktick),
    .seq (literal "$\x7b") (.seq (.plus (noneOf "\x7d")) (literal "\x7d"))]).occursIn text ||
    occursAsWord isWordUnit (.anyOf [literal "export", literal "printf", literal "chmod"])
      false text

def inferDialect (text : Text) : CommandDialect → DialectInference
  | .posixShell => ⟨.callerSpecified, some .posixShell, .known, none⟩
  | .windowsCmd => ⟨.callerSpecified, some .windowsCmd, .known, none⟩
  | .windowsPowershell => ⟨.callerSpecified, some .windowsPowershell, .known, none⟩
  | .auto =>
    let found := [(ResolvedCommandDialect.windowsCmd, hasCmdMarkers text),
      (.windowsPowershell, hasPowershellMarkers text), (.posixShell, hasPosixMarkers text)]
    match (found.filter (·.2)).map (·.1) with
    | [dialect] => ⟨.exclusiveMarkers, some dialect, .known, none⟩
    | [] =>
      { confidence := .insufficientMarkers
        dialect := none
        issue := some (js "command has no dialect-exclusive markers")
        uncertainty := .unknown "dialect cannot be inferred from static text" }
    | several =>
      { confidence := .mixedMarkers
        dialect := none
        issue := some (js "command contains markers from multiple dialects")
        uncertainty := .contradiction "multiple command dialects are plausible"
          (several.map fun dialect => ("markers match " ++ dialect.text, dialect.text)) }

/-! ## Invocations -/

open UnitPattern in
/-- `.bat`, `.cmd`, `.exe` or `.ps1` -/
def executableExtension : Pattern CodeUnit :=
  .seq (literal ".") (.anyOf (["bat", "cmd", "exe", "ps1"].map foldedLiteral))

variable (toLowerCase : Text → Text)

def canonicalExecutable (value : Text) (dialect : ResolvedCommandDialect) : Text :=
  if dialect = .posixShell then value
  else
    let lower := toLowerCase value
    if executableExtension.matchesAll (lower.drop (lower.length - 4)) then
      lower.take (lower.length - 4)
    else lower

/-- The tokens between operators; the last group may be empty. -/
def groupTokens (tokens : List CommandToken) : List (List CommandToken) :=
  let groups := tokens.foldl (fun (groups : List (List CommandToken) × List CommandToken) token =>
    if token.kind = .operator then
      if groups.2 = [] then groups else (groups.1 ++ [groups.2], [])
    else (groups.1, groups.2 ++ [token])) ([], [])
  groups.1 ++ [groups.2]

/-- What the loop over a group collects. -/
structure Segment where
  environment : OrderedMap Text Text
  redirections : List CommandRedirectionEvidence
  words : List CommandToken

def readGroup (text : Text) : List CommandToken → Segment → Segment
  | [], segment => segment
  | token :: rest, segment =>
    let asWord : Segment := { segment with words := segment.words ++ [token] }
    if token.kind = .environmentAssignment ∧ segment.words = [] then
      match token.value with
      | none => readGroup text rest asWord
      | some assignment =>
        readGroup text rest { segment with
          environment := segment.environment.set (assignment.takeWhile (· != 0x3d))
            ((assignment.dropWhile (· != 0x3d)).drop 1) }
    else if token.kind = .redirection then
      let redirect (stop : Nat) (target : Option Text) : Segment := { segment with
        redirections := segment.redirections ++
          [⟨token.raw, slice text token.start stop, token.start, stop, target⟩] }
      match rest with
      | [] => redirect token.stop none
      | next :: behind =>
        if next.kind = .word then readGroup text behind (redirect next.stop next.value)
        else readGroup text (next :: behind) (redirect token.stop none)
    else readGroup text rest asWord

def buildInvocation (text : Text) (dialect : ResolvedCommandDialect)
    (issues : List CommandLexerIssue) (group : List CommandToken) : CommandInvocationEvidence :=
  let segment := readGroup text group ⟨.empty, [], []⟩
  let start := (group.head?.map (·.start)).getD 0
  let stop := (group.getLast?.map (·.stop)).getD 0
  let malformed := issues.any fun item => start ≤ item.start && item.start ≤ stop
  let dynamic := segment.words.any fun token => token.value.isNone
  { arguments := (segment.words.drop 1).map (·.value)
    environment := segment.environment
    executable := (segment.words.head?.bind (·.value)).map fun value =>
      canonicalExecutable toLowerCase value dialect
    redirections := segment.redirections
    start, stop
    state :=
      if malformed then .malformed
      else if segment.words = [] then .empty
      else if dynamic then .dynamic
      else .literal }

def buildInvocations (text : Text) (limits : CommandLexerLimits) (state : ScanState)
    (dialect : ResolvedCommandDialect) :
    Except CommandLexerError (List CommandInvocationEvidence) := do
  let groups := (groupTokens state.tokens).filter (· ≠ [])
  refuseIf (limits.maximumInvocations < groups.length) (limit "maximumInvocations")
  pure (groups.map (buildInvocation toLowerCase text dialect state.issues))

/-! ## The lexer -/

def reportInference (limits : CommandLexerLimits) (text : Text) (state : ScanState)
    (inference : DialectInference) : Except CommandLexerError ScanState :=
  match inference.issue with
  | none => .ok state
  | some message => issue limits state 0 text.length message .ambiguousDialect

def resultUncertainty (inference : DialectInference) (state : ScanState) : Uncertainty :=
  let hasDynamic := state.tokens.any fun token => token.parts.any fun item => item.value.isNone
  if inference.uncertainty = .known ∧ state.issues ≠ [] then
    .unknown "command text contains malformed static syntax"
  else if inference.uncertainty = .known ∧ hasDynamic then
    .conditional ["runtime expansion or substitution determines part of the command"]
  else inference.uncertainty

/-- The dialect whose rules a scan follows. -/
def scanDialect (text : Text) (requested : CommandDialect) : ResolvedCommandDialect :=
  (inferDialect text requested).dialect.getD .posixShell

def lexCommandEvidence (rawInput : CommandLexerInput) (options : CommandLexerOptions) :
    Except CommandLexerError CommandLexerResult := do
  let input ← validateInput rawInput
  let limits ← validateOptions options
  refuseIf (limits.maximumInputLength < input.text.length) (limit "maximumInputLength")
  let inference := inferDialect input.text input.dialect
  let dialect := scanDialect input.text input.dialect
  let state ← scan input.text limits dialect
  let state ← reportInference limits input.text state inference
  let invocations ← buildInvocations toLowerCase input.text limits state dialect
  pure {
    confidence := inference.confidence
    invocations
    issues := state.issues
    limits
    partCount := state.partCount
    provenance := input.provenance
    requestedDialect := input.dialect
    resolvedDialect := inference.dialect
    tokens := state.tokens
    uncertainty := resultUncertainty inference state }

end CommandLexer

end AgentContextLint
