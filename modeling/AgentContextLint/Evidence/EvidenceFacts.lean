import AgentContextLint.Core.ConfigurationContracts
import AgentContextLint.Core.SourceCoordinates
import AgentContextLint.Lib.PlainTable

/-!
# Evidence facts

The facts, issues and catalogs of `packages/evidence/src/evidence-index.ts`, and the locations that
`SourceMapper` gives. The catalogs are plain objects, so that the name and the value of a fact are
what a lookup gives.
-/

namespace AgentContextLint

open Utf16 PlainTable

inductive EvidenceFactCategory
  | ci
  | lockfile
  | manifest
  | packageManager
  | path
  | runtime
  | script
  | task
  | tool
  deriving DecidableEq

def EvidenceFactCategory.text : EvidenceFactCategory → Text
  | .ci => js "ci"
  | .lockfile => js "lockfile"
  | .manifest => js "manifest"
  | .packageManager => js "package-manager"
  | .path => js "path"
  | .runtime => js "runtime"
  | .script => js "script"
  | .task => js "task"
  | .tool => js "tool"

inductive EvidenceFactCertainty
  | declared
  | observedPath
  | uncertain

inductive EvidenceInterpretation
  | inertText
  | pathOnly
  | workspaceEvidence

inductive EvidenceSourceState
  | complete
  | malformed
  | pathOnly
  | unavailable
  | unsupported
  deriving DecidableEq

def EvidenceSourceState.text : EvidenceSourceState → Text
  | .complete => js "complete"
  | .malformed => js "malformed"
  | .pathOnly => js "path-only"
  | .unavailable => js "unavailable"
  | .unsupported => js "unsupported"

structure EvidenceFactProvenance where
  collectorId : Text
  interpretation : EvidenceInterpretation
  sourceState : EvidenceSourceState

/-- A fact without its identity. -/
structure DraftFact where
  category : EvidenceFactCategory
  certainty : EvidenceFactCertainty
  location : ConfigurationSourceLocation
  name : Value
  provenance : EvidenceFactProvenance
  rawValue : Text
  scope : RelativePath
  value : Value

structure EvidenceFact extends DraftFact where
  id : Text

structure EvidenceConflict where
  category : EvidenceFactCategory
  factIds : List Text
  name : Value
  scope : RelativePath
  values : List Value

inductive EvidenceIssueCode
  | invalidSyntax
  | invalidType
  | unavailable
  | unsupportedSyntax

def EvidenceIssueCode.text : EvidenceIssueCode → Text
  | .invalidSyntax => js "invalid-syntax"
  | .invalidType => js "invalid-type"
  | .unavailable => js "unavailable"
  | .unsupportedSyntax => js "unsupported-syntax"

structure EvidenceIndexIssue where
  code : EvidenceIssueCode
  location : ConfigurationSourceLocation
  message : Text

structure EvidenceIndexLimits where
  maximumDepth : Nat
  maximumDurationMs : Nat
  maximumFacts : Nat
  maximumFileBytes : Nat
  maximumFiles : Nat
  maximumIssues : Nat
  maximumLineLength : Nat
  maximumLines : Nat
  maximumNodes : Nat
  maximumPaths : Nat
  maximumStringLength : Nat
  maximumTotalBytes : Nat

def evidenceIndexDefaultLimits : EvidenceIndexLimits where
  maximumDepth := 64
  maximumDurationMs := 30000
  maximumFacts := 250000
  maximumFileBytes := 1048576
  maximumFiles := 25000
  maximumIssues := 4096
  maximumLineLength := 65536
  maximumLines := 250000
  maximumNodes := 500000
  maximumPaths := 200000
  maximumStringLength := 65536
  maximumTotalBytes := 67108864

inductive EvidenceIndexErrorCode
  | aborted
  | deadlineExceeded
  | invalidInput
  | invalidOptions
  | limitExceeded

structure EvidenceIndexError where
  code : EvidenceIndexErrorCode
  message : String
  operation : String
  path : Option RelativePath

namespace EvidenceIndex

/-! ## Catalogs -/

def tableOf (entries : List (String × String)) : Table :=
  entries.map fun entry => (js entry.1, js entry.2)

/-- `LOCKFILES` -/
def lockfiles : Table := tableOf
  [("Cargo.lock", "cargo"), ("Gemfile.lock", "bundler"), ("Pipfile.lock", "pipenv"),
    ("bun.lock", "bun"), ("bun.lockb", "bun"), ("composer.lock", "composer"), ("go.sum", "go"),
    ("npm-shrinkwrap.json", "npm"), ("package-lock.json", "npm"), ("pnpm-lock.yaml", "pnpm"),
    ("poetry.lock", "poetry"), ("uv.lock", "uv"), ("yarn.lock", "yarn")]

/-- `TOOL_BASENAMES` -/
def toolBasenames : Table := tableOf
  [(".biome.json", "biome"), (".clang-format", "clang-format"), (".editorconfig", "editorconfig"),
    (".eslintrc", "eslint"), (".eslintrc.cjs", "eslint"), (".eslintrc.js", "eslint"),
    (".eslintrc.json", "eslint"), (".eslintrc.mjs", "eslint"), (".eslintrc.yml", "eslint"),
    (".eslintrc.yaml", "eslint"), (".flake8", "flake8"), (".golangci.yml", "golangci-lint"),
    (".golangci.yaml", "golangci-lint"), (".pylintrc", "pylint"), (".prettierrc", "prettier"),
    (".prettierrc.cjs", "prettier"), (".prettierrc.js", "prettier"),
    (".prettierrc.json", "prettier"), (".prettierrc.mjs", "prettier"),
    (".prettierrc.yml", "prettier"), (".prettierrc.yaml", "prettier"), (".ruff.toml", "ruff"),
    (".stylelintrc", "stylelint"), (".stylelintrc.json", "stylelint"), ("biome.json", "biome"),
    ("biome.jsonc", "biome"), ("deno.json", "deno"), ("deno.jsonc", "deno"),
    ("eslint.config.js", "eslint"), ("eslint.config.mjs", "eslint"), ("mypy.ini", "mypy"),
    ("prettier.config.cjs", "prettier"), ("prettier.config.js", "prettier"),
    ("prettier.config.mjs", "prettier"), ("ruff.toml", "ruff"), ("rustfmt.toml", "rustfmt"),
    ("stylelint.config.cjs", "stylelint"), ("stylelint.config.js", "stylelint")]

/-- `TOOL_PACKAGES` -/
def toolPackages : Table := tableOf
  [("@biomejs/biome", "biome"), ("@eslint/js", "eslint"),
    ("@typescript-eslint/eslint-plugin", "eslint"), ("@typescript-eslint/parser", "eslint"),
    ("eslint", "eslint"), ("eslint-plugin-prettier", "prettier"), ("oxlint", "oxlint"),
    ("prettier", "prettier"), ("stylelint", "stylelint")]

/-! ## Paths -/

def basename (path : RelativePath) : Text :=
  (path.reverse.takeWhile (· ≠ 0x2f)).reverse

/-- A canonical path is canonical up to its last slash. -/
def dirname (path : RelativePath) : RelativePath :=
  match path.reverse.dropWhile (· ≠ 0x2f) with
  | [] => RepositoryPath.repositoryRoot
  | _ :: front => front.reverse

/-! ## Locations -/

/-- `#byteOffsets`: the bytes in front of every offset, and all of them behind half of a pair. -/
def byteOffsetsFrom (bytes : Nat) : Text → List Nat
  | [] => [bytes]
  | [u] => [bytes, bytes + SourceCoordinates.unitBytes u]
  | u :: v :: rest =>
    if isHighSurrogate u ∧ isLowSurrogate v then
      bytes :: (bytes + 4) :: byteOffsetsFrom (bytes + 4) rest
    else bytes :: byteOffsetsFrom (bytes + SourceCoordinates.unitBytes u) (v :: rest)

def lineStartsFrom (offset : Nat) : Text → List Nat
  | [] => []
  | u :: rest =>
    if u = 0x0a ∨ (u = 0x0d ∧ rest.head? ≠ some 0x0a) then
      (offset + 1) :: lineStartsFrom (offset + 1) rest
    else lineStartsFrom (offset + 1) rest

structure TextDocument where
  path : RelativePath
  text : Text

namespace TextDocument

/-- The line starts are ascending, so that the last one in front of an offset is found by their
number. -/
def position (document : TextDocument) (input : Nat) : SourcePosition :=
  let bounded := min input document.text.length
  let lineStarts := 0 :: lineStartsFrom 0 document.text
  let low := (lineStarts.filter (· ≤ bounded)).length - 1
  { byteOffset := (byteOffsetsFrom 0 document.text).getD bounded 0
    utf16Offset := bounded
    line := low
    utf16Column := bounded - lineStarts.getD low 0 }

def location (document : TextDocument) (offset length : Nat) : ConfigurationSourceLocation :=
  ⟨document.path, document.position offset, document.position (offset + length)⟩

def wholeFile (document : TextDocument) : ConfigurationSourceLocation :=
  document.location 0 document.text.length

end TextDocument

def pathLocation (path : RelativePath) : ConfigurationSourceLocation :=
  ⟨path, ⟨0, 0, 0, 0⟩, ⟨0, 0, 0, 0⟩⟩

/-- What a collector adds, in the order in which it adds it. -/
inductive Emission
  | fact (fact : DraftFact)
  | issue (issue : EvidenceIndexIssue)

def Emission.fact? : Emission → Option DraftFact
  | .fact draft => some draft
  | .issue _ => none

def factsOf (emissions : List Emission) : List DraftFact := emissions.filterMap (·.fact?)

end EvidenceIndex

end AgentContextLint
