import AgentContextLint.Evidence.EvidenceFacts
import AgentContextLint.Lib.JsonParse

/-!
# Reading evidence files

The parsers of `packages/evidence/src/evidence-index.ts`. Each one turns a document into facts and
issues in the order in which the source adds them. What a file says is kept as inert text.
-/

namespace AgentContextLint.EvidenceIndex

open Utf16 UnitPattern PlainTable
open ParsedJson (get parse sortedFields)

/-! ## Texts -/

def isLineTerminator (u : CodeUnit) : Bool := u == 0x0a || u == 0x0d || u == 0x2028 || u == 0x2029

def trimStart (text : Text) : Text := text.dropWhile isWhiteSpace

def trimEnd (text : Text) : Text := (text.reverse.dropWhile isWhiteSpace).reverse

def trim (text : Text) : Text := trimEnd (trimStart text)

/-- The first offset from `start` on at which the text has the pattern. -/
def indexOf (text pattern : Text) (start : Nat) : Option Nat :=
  ((List.range (text.length + 1)).find? fun offset =>
    start ≤ offset && pattern.isPrefixOf (text.drop offset))

/-- The lines with their offsets; `\r\n`, `\r` and `\n` end a line. -/
def linesFrom (offset : Nat) (line : Text) : Text → List (Nat × Text)
  | [] => [(offset, line)]
  | 0x0d :: 0x0a :: rest => (offset, line) :: linesFrom (offset + line.length + 2) [] rest
  | u :: rest =>
    if u = 0x0a ∨ u = 0x0d then (offset, line) :: linesFrom (offset + line.length + 1) [] rest
    else linesFrom offset (line ++ [u]) rest

def lines (document : TextDocument) : List (Nat × Text) := linesFrom 0 [] document.text

/-- What stands behind a literal at the start of a text. -/
def behind? (literal : String) (text : Text) : Option Text :=
  if (js literal).isPrefixOf text then some (text.drop (js literal).length) else none

/-- `\s*(?:#.*)?$` -/
def endsWithComment (text : Text) : Bool :=
  match trimStart text with
  | [] => true
  | u :: rest => u == 0x23 && rest.all (!isLineTerminator ·)

/-- `[A-Za-z0-9_-]` -/
def isNameUnit (u : CodeUnit) : Bool := isAlphanumeric u || u == 0x5f || u == 0x2d

/-- The pattern matches at the start of a line, in the sense of the `m` flag. -/
def atLineStarts {α : Type} (here : Text → Option α) : (offset : Nat) → (first : Bool) →
    Text → Option (Nat × α)
  | offset, first, [] => if first then (here []).map (offset, ·) else none
  | offset, first, u :: rest =>
    match if first then here (u :: rest) else none with
    | some found => some (offset, found)
    | none => atLineStarts here (offset + 1) (isLineTerminator u) rest

/-! ## Facts and issues -/

def inertText (collectorId : Text) : EvidenceFactProvenance :=
  ⟨collectorId, .inertText, .complete⟩

/-- A fact that a document declares about its own directory. -/
def declared (document : TextDocument) (category : EvidenceFactCategory) (collectorId : String)
    (location : ConfigurationSourceLocation) (name : Value) (rawValue value : Text) : Emission :=
  .fact {
    category, certainty := .declared, location, name, provenance := inertText (js collectorId)
    rawValue, scope := dirname document.path, value := .text value }

variable (document : TextDocument)

def addTask (name provider : Text) (offset : Nat) (rawValue : Text) : Emission :=
  .fact {
    category := .task, certainty := .declared, location := document.location offset name.length
    name := .text name, provenance := inertText (js "f01." ++ provider), rawValue
    scope := dirname document.path, value := .text provider }

def issue (code : EvidenceIssueCode) (location : ConfigurationSourceLocation) (message : Text) :
    Emission :=
  .issue ⟨code, location, message⟩

/-! ## Package manifests -/

def locateJsonKey (key : Text) (start : Nat) : ConfigurationSourceLocation :=
  match indexOf document.text (Json.quote key) start with
  | none => document.wholeFile
  | some offset => document.location offset (Json.quote key).length

/-- `^(npm|pnpm|yarn|bun)(?:@|$)` -/
def packageManagerName (value : Text) : Option Text :=
  (["npm", "pnpm", "yarn", "bun"].find? fun name =>
    match behind? name (trim value) with
    | none => false
    | some rest => rest.head?.all (· == 0x40)).map js

abbrev Fields := List (Text × ParsedJson)

/-- The offset of a field name, for the keys below it. -/
def fieldOffset (field : String) : Nat :=
  (indexOf document.text (Json.quote (js field)) 0).getD 0

def selectedManager (fields : Fields) : List Emission :=
  let location := locateJsonKey document (js "packageManager") 0
  match get fields (js "packageManager") with
  | none => []
  | some (.string manager) =>
    match packageManagerName manager with
    | none => [issue .unsupportedSyntax location
        (js "packageManager declaration is not a supported package-manager identity")]
    | some normalized => [declared document .packageManager "f01.package-json" location
        (.text (js "selected")) manager normalized]
  | some _ => [issue .invalidType location (js "packageManager must be a string")]

/-- The entries of an object of strings, in the order of their names. -/
def textEntries (fields : Fields) (field : String) (objectMessage entryLabel : String)
    (category : EvidenceFactCategory) (normalize : Text → Text) : List Emission :=
  match get fields (js field) with
  | none => []
  | some (.object entries) =>
    (sortedFields entries).map fun (name, value) =>
      let location := locateJsonKey document name (fieldOffset document field)
      match value with
      | .string text => declared document category "f01.package-json" location (.text name) text
          (normalize text)
      | _ => issue .invalidType location
          (js entryLabel ++ Json.quote name ++ js " must be a string")
  | some _ => [issue .invalidType (locateJsonKey document (js field) 0) (js objectMessage)]

def scripts (document : TextDocument) (fields : Fields) : List Emission :=
  textEntries document fields "scripts" "package scripts must be an object of strings"
    "package script " .script id

def engines (document : TextDocument) (fields : Fields) : List Emission :=
  textEntries document fields "engines" "package engines must be an object of strings"
    "runtime constraint " .runtime trim

def devEngines (document : TextDocument) (fields : Fields) : List Emission :=
  match get fields (js "devEngines") with
  | none => []
  | some (.object entries) =>
    let runtimeValues := match get entries (js "runtime") with
      | some (.array items) => items
      | some value => [value]
      | none => []
    runtimeValues.filterMap fun
      | .object runtimeFields =>
        match get runtimeFields (js "name"),
          get runtimeFields (js "version") with
        | some (.string name), some (.string version) =>
          some (declared document .runtime "f01.package-json"
            (locateJsonKey document (js "runtime") 0) (.text name) version (trim version))
        | _, _ => none
      | _ => none
  | some _ => [issue .invalidType (locateJsonKey document (js "devEngines") 0)
      (js "package devEngines must be an object")]

def volta (document : TextDocument) (fields : Fields) : List Emission :=
  match get fields (js "volta") with
  | some (.object entries) =>
    match get entries (js "node") with
    | some (.string node) => [declared document .runtime "f01.package-json"
        (locateJsonKey document (js "node") (fieldOffset document "volta")) (.text (js "node"))
        node (trim node)]
    | _ => []
  | _ => []

def embeddedTool (fields : Fields) (field tool : String) : List Emission :=
  let location := locateJsonKey document (js field) 0
  match get fields (js field) with
  | none => []
  | some (.object _) => [declared document .tool "f01.package-json" location (.text (js tool))
      (js field) (js "configuration")]
  | some _ => [issue .invalidType location
      (js field ++ js " must be an object when used as embedded tool configuration")]

def dependencyFields : List String :=
  ["dependencies", "devDependencies", "optionalDependencies", "peerDependencies"]

/-- A dependency is a tool if the table of the packages gives something. -/
def dependency (document : TextDocument) (field : String) (packageName : Text)
    (version : ParsedJson) : List Emission :=
  match lookup toolPackages packageName with
  | none => []
  | some tool =>
    let location := locateJsonKey document packageName (fieldOffset document field)
    match version with
    | .string version => [declared document .tool "f01.package-json" location tool
        (packageName ++ [0x40] ++ version) (js "dependency")]
    | _ => [issue .invalidType location
        (js "tool dependency " ++ Json.quote packageName ++ js " must be a string")]

def dependencies (fields : Fields) (field : String) : List Emission :=
  match get fields (js field) with
  | none => []
  | some (.object entries) =>
    (sortedFields entries).flatMap fun (packageName, version) =>
      dependency document field packageName version
  | some _ => [issue .invalidType (locateJsonKey document (js field) 0)
      (js field ++ js " must be an object")]

def parsePackageJson (document : TextDocument) : List Emission :=
  match parse document.text with
  | none => [issue .invalidSyntax document.wholeFile (js "package manifest is not strict JSON")]
  | some (.object fields) =>
    selectedManager document fields ++ scripts document fields ++ engines document fields ++
      devEngines document fields ++ volta document fields ++
      embeddedTool document fields "eslintConfig" "eslint" ++
      embeddedTool document fields "prettier" "prettier" ++
      embeddedTool document fields "stylelint" "stylelint" ++
      dependencyFields.flatMap (dependencies document fields)
  | some _ => [issue .invalidType document.wholeFile
      (js "package manifest root must be an object")]

/-! ## Make and Just -/

/-- `^([^:=#][^:=]*?):(?:\s|$)` -/
def makeTargets : Text → Option Text
  | [] => none
  | u :: rest =>
    let isName (v : CodeUnit) : Bool := v != 0x3a && v != 0x3d
    if !isName u || u == 0x23 then none
    else match rest.dropWhile isName with
      | 0x3a :: after =>
        if after.head?.all isWhiteSpace then some (u :: rest.takeWhile isName) else none
      | _ => none

def isMakeTarget (target : Text) : Bool :=
  target.head? != some 0x2e && !target.contains 0x25 && !target.any (js "$(){}").contains

/-- `\$\(eval\b|\$\(shell\b|^include\s` -/
def hasDynamicMake (text : Text) : Bool :=
  let boundary (rest : Text) : Bool := rest.head?.all (!isWordUnit ·)
  text.tails.any (fun rest => ((behind? "$(eval" rest).any boundary) ||
      ((behind? "$(shell" rest).any boundary)) ||
    (atLineStarts (fun rest => if (behind? "include" rest).any (·.head?.any isWhiteSpace)
      then some () else none) 0 true text).isSome

def parseMake (document : TextDocument) : List Emission :=
  ((lines document).flatMap fun (offset, line) =>
    if line.head?.any isWhiteSpace ∨ line.head? = some 0x23 then []
    else match makeTargets line with
      | none => []
      | some names =>
        let targets := ((trim names).splitOnP isWhiteSpace).filter fun target =>
          target ≠ [] ∧ isMakeTarget target
        targets.map fun target =>
          addTask document target (js "make") (offset + (indexOf line target 0).getD 0) target) ++
    if hasDynamicMake document.text then
      [issue .unsupportedSyntax document.wholeFile
        (js "dynamic Make constructs were retained as uncertainty and not expanded")]
    else []

/-- `^([A-Za-z0-9_-]+)(?:\s+[^:]+)?:\s*(.*)$` -/
def justRecipe (line : Text) : Option (Text × Text) :=
  let name := line.takeWhile isNameUnit
  let rest := line.drop name.length
  let parameters := rest.takeWhile (· ≠ 0x3a)
  match rest.drop parameters.length with
  | 0x3a :: tail =>
    let body := trimStart tail
    if name ≠ [] ∧ (parameters = [] ∨ parameters.head?.any isWhiteSpace ∧ 2 ≤ parameters.length) ∧
        body.all (!isLineTerminator ·) then some (name, body)
    else none
  | _ => none

def parseJust (document : TextDocument) : List Emission :=
  ((lines document).filterMap fun (offset, line) =>
    if line.head?.any isWhiteSpace ∨ line.head? = some 0x23 ∨ line.head? = some 0x40 then none
    else (justRecipe line).map fun (name, body) => addTask document name (js "just") offset body) ++
    if (atLineStarts (fun rest =>
        if ["import", "mod"].any fun word => (behind? word rest).any (·.head?.any isWhiteSpace)
        then some () else none) 0 true document.text).isSome then
      [issue .unsupportedSyntax document.wholeFile (js "Just imports/modules were not followed")]
    else []

/-! ## Documents of keys and values -/

inductive KeyValueKind
  | cargo
  | go
  | pyproject
  deriving DecidableEq

/-- `^\[([^\]]+)\]$` -/
def sectionName : Text → Option Text
  | 0x5b :: rest =>
    let name := rest.dropLast
    if rest.getLast? = some 0x5d ∧ name ≠ [] ∧ 0x5d ∉ name then some name else none
  | _ => none

/-- `^(go|toolchain)\s+([^\s/]+)$` -/
def goDirective (line : Text) : Option (String × Text) :=
  ["go", "toolchain"].findSome? fun word =>
    match behind? word line with
    | none => none
    | some rest =>
      let value := trimStart rest
      if rest.head?.any isWhiteSpace ∧ value ≠ [] ∧
          value.all (fun u => !isWhiteSpace u && u != 0x2f) then some (word, value)
      else none

/-- `(.*?)\2\s*(?:#.*)?$` behind the quote, with what was read of the value. -/
def quotedValue (quote : CodeUnit) (value : Text) : Text → Option Text
  | [] => none
  | u :: rest =>
    if u = quote ∧ endsWithComment rest then some value
    else if isLineTerminator u then none
    else quotedValue quote (value ++ [u]) rest

/-- `^([A-Za-z0-9_.-]+)\s*=\s*(["'])(.*?)\2\s*(?:#.*)?$` -/
def assignment (line : Text) : Option (Text × Text) :=
  let key := line.takeWhile fun u => isNameUnit u || u == 0x2e
  match trimStart (line.drop key.length) with
  | 0x3d :: rest =>
    match trimStart rest with
    | quote :: rest =>
      if key ≠ [] ∧ (quote = 0x22 ∨ quote = 0x27) then
        (quotedValue quote [] rest).map (key, ·)
      else none
    | [] => none
  | _ => none

def pyprojectTools : List Text :=
  ["tool.black", "tool.mypy", "tool.pyright", "tool.ruff", "tool.ruff.lint"].map js

def pyprojectTaskSections : List Text :=
  ["tool.poe.tasks", "tool.pdm.scripts", "tool.hatch.envs.default.scripts"].map js

/-- The tool of a section, without `tool.` and what stands behind a further dot. -/
def sectionTool (name : Text) : Text :=
  (name.drop (js "tool.").length).takeWhile (· ≠ 0x2e)

def assigned (kind : KeyValueKind) (currentSection : Text) (offset : Nat)
    (location : ConfigurationSourceLocation) (key value : Text) : List Emission :=
  match kind with
  | .go => []
  | .cargo =>
    (if currentSection = js "package" ∧ key = js "rust-version" then
      [declared document .runtime "f01.cargo-toml" location (.text (js "rust")) value value]
    else []) ++
    if currentSection = js "alias" then
      [addTask document key (js "cargo-alias") offset value]
    else []
  | .pyproject =>
    (if currentSection = js "project" ∧ key = js "requires-python" then
      [declared document .runtime "f01.pyproject" location (.text (js "python")) value value]
    else []) ++
    if currentSection ∈ pyprojectTaskSections then
      [addTask document key (js "pyproject:" ++ currentSection) offset value]
    else []

/-- The loop over the lines, with the section and the tools so far. -/
def keyValueLines (document : TextDocument) (kind : KeyValueKind) :
    (currentSection : Text) → (emittedTools : List Text) → List (Nat × Text) →
      List Emission
  | _, _, [] => []
  | currentSection, emittedTools, (offset, line) :: rest =>
    let location := document.location offset line.length
    match sectionName (trim line) with
    | some name =>
      if kind = .pyproject ∧ name ∈ pyprojectTools ∧ sectionTool name ∉ emittedTools then
        declared document .tool "f01.pyproject" location (.text (sectionTool name)) name
            (js "configuration") ::
          keyValueLines document kind name (sectionTool name :: emittedTools) rest
      else keyValueLines document kind name emittedTools rest
    | none =>
      let here := match kind with
        | .go => match goDirective (trim line) with
          | none => []
          | some (word, value) => [declared document .runtime "f01.go-mod" location
              (.text (if word = "go" then js "go" else js "go-toolchain")) value value]
        | _ => match assignment (trim line) with
          | none => []
          | some (key, value) =>
            assigned document kind currentSection offset location key value
      here ++ keyValueLines document kind currentSection emittedTools rest

def parseKeyValueDocument (kind : KeyValueKind) : List Emission :=
  keyValueLines document kind [] [] (lines document)

/-! ## Runtime files -/

def runtimeBasenames : List Text :=
  [".nvmrc", ".go-version", ".java-version", ".node-version", ".python-version", ".ruby-version",
    ".tool-versions", "rust-toolchain", "rust-toolchain.toml"].map js

def runtimeMapping : Table := tableOf
  [(".go-version", "go"), (".java-version", "java"), (".node-version", "node"), (".nvmrc", "node"),
    (".python-version", "python"), (".ruby-version", "ruby"), ("rust-toolchain", "rust")]

/-- `^(nodejs|python|golang|rust)\s+(.+)$` -/
def toolVersion (line : Text) : Option (Text × Text) :=
  [("nodejs", "node"), ("python", "python"), ("golang", "go"), ("rust", "rust")].findSome?
    fun (word, name) =>
      match behind? word line with
      | none => none
      | some rest =>
        let value := trimStart rest
        if rest.head?.any isWhiteSpace ∧ value ≠ [] ∧ value.all (!isLineTerminator ·) then
          some (js name, value)
        else none

/-- `(.*?)\1` behind the quote: the value, and what stands behind it. -/
def quotedText (quote : CodeUnit) (value : Text) : Text → Option (Text × Text)
  | [] => none
  | u :: rest =>
    if u = quote then some (value, rest)
    else if isLineTerminator u then none
    else quotedText quote (value ++ [u]) rest

/-- `\s*channel\s*=\s*(["'])(.*?)\1`: the value, and the length of the match. -/
def channel (text : Text) : Option (Text × Nat) :=
  match behind? "channel" (trimStart text) with
  | none => none
  | some rest =>
    match trimStart rest with
    | 0x3d :: rest =>
      match trimStart rest with
      | quote :: rest =>
        if quote = 0x22 ∨ quote = 0x27 then
          (quotedText quote [] rest).map fun (value, after) =>
            (value, text.length - after.length)
        else none
      | [] => none
    | _ => none

def parseRuntimeFile (document : TextDocument) : List Emission :=
  let base := basename document.path
  let values := ((lines document).map fun line => trim line.2).filter fun line =>
    line ≠ [] ∧ line.head? ≠ some 0x23
  let located (text : Text) : ConfigurationSourceLocation :=
    document.location ((indexOf document.text text 0).getD 0) text.length
  (match lookup runtimeMapping base, values.head? with
    | some runtime, some first =>
      [declared document .runtime "f01.runtime-file" (located first) runtime first first]
    | _, _ => []) ++
  (if base = js ".tool-versions" then
    values.filterMap fun line => (toolVersion line).map fun (name, value) =>
      declared document .runtime "f01.tool-versions" (located line) (.text name) value value
  else []) ++
  if base = js "rust-toolchain.toml" then
    match atLineStarts channel 0 true document.text with
    | none => []
    | some (index, value, length) => [declared document .runtime "f01.rust-toolchain"
        (document.location index length) (.text (js "rust")) value value]
  else []

/-! ## Workflows -/

/-- `^ {2}([A-Za-z0-9_-]+):\s*(?:#.*)?$` -/
def jobName (line : Text) : Option Text :=
  match behind? "  " line with
  | none => none
  | some rest =>
    let name := rest.takeWhile isNameUnit
    match rest.drop name.length with
    | 0x3a :: tail => if name ≠ [] ∧ endsWithComment tail then some name else none
    | _ => none

/-- `^\s*-?\s*(run|uses):\s*(.*?)\s*$` -/
def stepOf (line : Text) : Option (Text × Text) :=
  let item := match trimStart line with
    | 0x2d :: rest => trimStart rest
    | rest => rest
  ["run", "uses"].findSome? fun word =>
    match behind? (word ++ ":") item with
    | none => none
    | some rest =>
      let value := trim rest
      if value.all (!isLineTerminator ·) then some (js word, value) else none

/-- A fact about the repository that a workflow declares. -/
def declaredByWorkflow (location : ConfigurationSourceLocation) (name rawValue value : Text) :
    Emission :=
  .fact {
    category := .ci, certainty := .declared, location, name := .text name
    provenance := inertText (js "f01.github-workflow"), rawValue
    scope := RepositoryPath.repositoryRoot, value := .text value }

def ciStep (offset : Nat) (line : Text) : List Emission :=
  match stepOf line with
  | none => []
  | some (name, value) =>
    let location := document.location offset line.length
    if value.getLast?.any (js ">|").contains then
      [issue .unsupportedSyntax location
        (js "multiline CI command is intentionally not expanded")]
    else [declaredByWorkflow location name value value]

/-- The loop over the lines, with whether the jobs have begun. -/
def ciLines (document : TextDocument) : (inJobs : Bool) → List (Nat × Text) → List Emission
  | _, [] => []
  | inJobs, (offset, line) :: rest =>
    if (behind? "jobs:" line).any endsWithComment then ciLines document true rest
    else
      let leaves := line.head?.any fun u => !isWhiteSpace u && u != 0x23
      let inJobs := inJobs && !leaves
      let job := if inJobs then
        (jobName line).toList.map fun name => declaredByWorkflow
          (document.location (offset + 2) name.length) name name (js "job")
      else []
      job ++ ciStep document offset line ++ ciLines document inJobs rest

def parseCi (document : TextDocument) : List Emission := ciLines document false (lines document)

/-! ## Task manifests -/

def taskField (base : Text) (fields : Fields) : Option (String × Fields) :=
  let record (field : String) : Option (String × Fields) :=
    match get fields (js field) with
    | some (.object entries) => some (field, entries)
    | _ => none
  if base = js "turbo.json" then (record "tasks").or (record "pipeline")
  else if base = js "nx.json" then record "targetDefaults"
  else none

def parseTaskJson (document : TextDocument) : List Emission :=
  match parse document.text with
  | none => [issue .invalidSyntax document.wholeFile (js "task manifest is not strict JSON")]
  | some (.object fields) =>
    match taskField (basename document.path) fields with
    | none => []
    | some (field, entries) =>
      let provider := if basename document.path = js "nx.json" then "nx" else "turbo"
      (sortedFields entries).map fun entry =>
        addTask document entry.1 (js provider)
          ((indexOf document.text (Json.quote entry.1) (fieldOffset document field)).getD 0)
          entry.1
  | some _ => []

end AgentContextLint.EvidenceIndex
