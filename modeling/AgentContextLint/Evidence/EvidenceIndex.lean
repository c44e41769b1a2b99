import AgentContextLint.Evidence.EvidenceParsers
import AgentContextLint.Lib.OrderedMap
import AgentContextLint.Lib.StatefulRuns
import AgentContextLint.Lib.Utf8Decoders

/-!
# The evidence index

Model of `collectRepositoryEvidenceWithClock` of `packages/evidence/src/evidence-index.ts`. The
arguments are data: an inventory of paths, the records of a workspace and what reading a file
gives. A checkpoint stops the collection when the signal or the clock says so, at any time.

`deepFreeze` freezes what it reaches. Of that, `frozen` lists the objects that are not made by the
collection: they belong to the realm.
-/

namespace AgentContextLint.EvidenceIndex

open Utf16 Utf8 PlainTable StatefulRuns
open RepositoryPath (canonicalizeRepositoryRelativePath repositoryRoot)
open Sorting (sortBy)
open UnitPattern (literal noneOf)

/-! ## Input -/

inductive PackageManagerOption
  | auto
  | selected (name : Text)

/-- What the collection looks at of a record of the workspace. -/
structure WorkspaceRecord where
  family : Text
  location : ConfigurationSourceLocation
  packageManager : Option Text
  path : Text
  projectName : Option Text
  recognizerId : Text
  root : Text
  state : EvidenceSourceState

structure Workspace where
  contractVersion : Text
  evidence : List WorkspaceRecord
  uncertaintyReasons : List Text

inductive FileRead
  | bytes (bytes : List UInt8)
  /-- The code of a `ReadOnlyRepositoryError`. -/
  | refused (code : Text)

structure Input where
  readFile : RelativePath → FileRead
  workspace : Workspace
  paths : List Text
  limits : EvidenceIndexLimits
  configuredPackageManager : PackageManagerOption
  /-- What the signal and the clock say at the checkpoints, one after the other. -/
  interrupts : Nat → Option EvidenceIndexErrorCode

/-! ## The collection -/

structure Context where
  facts : List DraftFact
  issues : List EvidenceIndexIssue
  contentReads : Nat
  nodeCount : Nat
  totalBytes : Nat
  checkpoints : Nat
  frozen : List Text

def Context.started : Context := ⟨[], [], 0, 0, 0, 0, []⟩

abbrev Collection := StateT Context (Except EvidenceIndexError)

variable (input : Input)

def interruptMessage : EvidenceIndexErrorCode → String
  | .aborted => "evidence collection was aborted"
  | .deadlineExceeded => "evidence collection deadline exceeded"
  | _ => "clock failed"

def checkpoint (operation : String) (path : Option RelativePath) : Collection Unit :=
  fun context =>
    match input.interrupts context.checkpoints with
    | some code => .error ⟨code, interruptMessage code, operation, path⟩
    | none => .ok ((), { context with checkpoints := context.checkpoints + 1 })

def invalidInput (message operation : String) : EvidenceIndexError :=
  ⟨.invalidInput, message, operation, none⟩

def limitExceeded (message operation : String) (path : Option RelativePath) : EvidenceIndexError :=
  ⟨.limitExceeded, message, operation, path⟩

/-! ## Validation -/

def unsafeText (value : Text) : Bool :=
  value.any fun u => (u.toNat ≤ 0x1f && u != 0x09 && u != 0x0a && u != 0x0d) || u == 0x7f

def isCanonical (path : Text) : Prop :=
  canonicalizeRepositoryRelativePath path .posix = .ok path

instance (path : Text) : Decidable (isCanonical path) := inferInstanceAs (Decidable (_ = _))

/-- The loop over the paths, with the path before. -/
def snapshotPathsFrom (previous : Option Text) : List Text → Collection Unit
  | [] => pure ()
  | item :: rest => do
    checkpoint input "validate-paths" none
    stopIf (item = [] ∨ input.limits.maximumStringLength < item.length ∨ unsafeText item)
      (invalidInput "evidence path is invalid" "validate-paths")
    stopIf (¬ (canonicalizeRepositoryRelativePath item .posix).toOption.isSome)
      (invalidInput "evidence path is invalid" "validate-paths")
    stopIf (item = repositoryRoot ∨ ¬ isCanonical item ∨
        ∃ before ∈ previous, compareUnits before item ≠ .lt)
      (invalidInput "evidence paths must be canonical, sorted, and unique" "validate-paths")
    snapshotPathsFrom (some item) rest

def snapshotPaths : Collection Unit := do
  stopIf (input.limits.maximumPaths < input.paths.length)
    (limitExceeded "evidence paths exceeds its resource limit" "validate-input" none)
  snapshotPathsFrom input none input.paths

def isRecordText (limits : EvidenceIndexLimits) (text : Text) : Prop :=
  text.length ≤ limits.maximumStringLength ∧ unsafeText text = false

instance (limits : EvidenceIndexLimits) (text : Text) : Decidable (isRecordText limits text) :=
  inferInstanceAs (Decidable (_ ∧ _))

def recordTexts (record : WorkspaceRecord) : List Text :=
  [record.family, record.recognizerId] ++ record.projectName.toList ++ record.packageManager.toList

def isForward (location : ConfigurationSourceLocation) : Prop :=
  location.start.byteOffset ≤ location.stop.byteOffset ∧
    location.start.utf16Offset ≤ location.stop.utf16Offset

instance (location : ConfigurationSourceLocation) : Decidable (isForward location) :=
  inferInstanceAs (Decidable (_ ∧ _))

def snapshotRecord (record : WorkspaceRecord) : Collection Unit := do
  stopIf (record.state = .pathOnly ∨ ∃ text ∈ recordTexts record, ¬ isRecordText input.limits text)
    (invalidInput "workspace record is malformed" "validate-workspace")
  stopIf (¬ (canonicalizeRepositoryRelativePath record.path .posix).toOption.isSome)
    (invalidInput "workspace path is invalid" "validate-workspace")
  stopIf (¬ (canonicalizeRepositoryRelativePath record.root .posix).toOption.isSome)
    (invalidInput "workspace root is invalid" "validate-workspace")
  stopIf (¬ isCanonical record.path ∨ ¬ isCanonical record.root)
    (invalidInput "workspace location is inconsistent" "validate-workspace")
  stopIf (record.location.path ≠ record.path)
    (invalidInput "workspace location is malformed" "validate-workspace")
  stopIf (¬ isForward record.location)
    (invalidInput "workspace range is reversed" "validate-workspace")

def snapshotWorkspace : Collection Unit := do
  stopIf (input.workspace.contractVersion ≠ js "0.1.0")
    (invalidInput "workspace evidence contract is invalid" "validate-workspace")
  stopIf (input.limits.maximumFiles < input.workspace.evidence.length)
    (limitExceeded "workspace evidence exceeds its resource limit" "validate-input" none)
  input.workspace.evidence.forM (snapshotRecord input)
  stopIf (input.limits.maximumIssues < input.workspace.uncertaintyReasons.length)
    (limitExceeded "workspace uncertainty reasons exceeds its resource limit" "validate-input" none)
  stopIf (∃ reason ∈ input.workspace.uncertaintyReasons, ¬ isRecordText input.limits reason)
    (invalidInput "workspace uncertainty reason is invalid" "validate-workspace")

/-! ## Adding -/

def exceeds (limits : EvidenceIndexLimits) (value : Value) : Prop :=
  ∃ length ∈ value.length?, limits.maximumStringLength < length

instance (limits : EvidenceIndexLimits) (value : Value) : Decidable (exceeds limits value) :=
  inferInstanceAs (Decidable (∃ length ∈ value.length?, _))

def frozenBy (fact : DraftFact) : List Text := fact.name.frozen ++ fact.value.frozen

def addFact (fact : DraftFact) : Collection Unit := do
  stopIf (exceeds input.limits fact.name ∨ input.limits.maximumStringLength < fact.rawValue.length ∨
      exceeds input.limits fact.value)
    (limitExceeded "evidence string limit exceeded" "retain-fact" (some fact.location.path))
  stopIf (input.limits.maximumFacts ≤ (← get).facts.length)
    (limitExceeded "evidence fact limit exceeded" "retain-fact" (some fact.location.path))
  modify fun context => { context with
    facts := context.facts ++ [fact]
    frozen := context.frozen ++ frozenBy fact }

def addIssue (issue : EvidenceIndexIssue) : Collection Unit := do
  stopIf (input.limits.maximumIssues ≤ (← get).issues.length)
    (limitExceeded "evidence issue limit exceeded" "retain-issue" (some issue.location.path))
  modify fun context => { context with issues := context.issues ++ [issue] }

def emit : Emission → Collection Unit
  | .fact fact => addFact input fact
  | .issue issue => addIssue input issue

def emitAll (emissions : List Emission) : Collection Unit := emissions.forM (emit input)

/-! ## Paths and records -/

/-- `^\.github\/workflows\/[^/]+\.ya?ml$` -/
def isWorkflowPath (path : RelativePath) : Bool :=
  (Pattern.seq (literal ".github/workflows/") <|
    .seq (.plus (noneOf "/")) <| .seq (literal ".y") <|
    .seq (.optional (literal "a")) (literal "ml")).matchesAll path

def ciProvider (path : RelativePath) : Option Text :=
  if isWorkflowPath path then some (js "github-actions")
  else if path ∈ [".gitlab-ci.yml", ".gitlab-ci.yaml"].map js then some (js "gitlab-ci")
  else if path ∈ [".circleci/config.yml", ".circleci/config.yaml"].map js then some (js "circleci")
  else if path ∈ ["azure-pipelines.yml", "azure-pipelines.yaml"].map js then
    some (js "azure-pipelines")
  else if path ∈ [".buildkite/pipeline.yml", ".buildkite/pipeline.yaml"].map js then
    some (js "buildkite")
  else if path ∈ ["bitbucket-pipelines.yml", "bitbucket-pipelines.yaml"].map js then
    some (js "bitbucket-pipelines")
  else if basename path = js "Jenkinsfile" then some (js "jenkins")
  else none

def pathOnly (collectorId : String) : EvidenceFactProvenance := ⟨js collectorId, .pathOnly, .pathOnly⟩

variable (path : RelativePath)

/-- A fact that the path alone shows. -/
def observed (category : EvidenceFactCategory) (collectorId : String) (name : Value)
    (rawValue : Text) (scope : RelativePath) (value : Value) : DraftFact where
  category := category
  certainty := .observedPath
  location := pathLocation path
  name := name
  provenance := pathOnly collectorId
  rawValue := rawValue
  scope := scope
  value := value

def pathFact (path : RelativePath) : DraftFact :=
  observed path .path "f01.path-inventory" (.text path) path (dirname path) (.text (js "present"))

def lockfileFact (lockManager : Value) : DraftFact :=
  observed path .lockfile "f01.lockfile-catalog" lockManager (basename path) (dirname path)
    (.text (js "present"))

def lockManagerFact (lockManager : Value) : DraftFact :=
  observed path .packageManager "f01.lockfile-catalog" (.text (js "selected")) (basename path)
    (dirname path) lockManager

def toolConfigurationFact (tool : Value) : DraftFact :=
  observed path .tool "f01.tool-config-catalog" tool path (dirname path)
    (.text (js "configuration"))

def ciPathFact (provider : Text) : DraftFact :=
  observed path .ci "f01.ci-path-catalog" (.text provider) path repositoryRoot
    (.text (js "configuration"))

def pathFacts (path : RelativePath) : List DraftFact :=
  [pathFact path] ++
    (match lookup lockfiles (basename path) with
      | none => []
      | some lockManager => [lockfileFact path lockManager, lockManagerFact path lockManager]) ++
    ((lookup toolBasenames (basename path)).map (toolConfigurationFact path)).toList ++
    ((ciProvider path).map (ciPathFact path)).toList

def configurationFacts : PackageManagerOption → List DraftFact
  | .auto => []
  | .selected name => [{
      category := .packageManager, certainty := .declared
      location := pathLocation (js ".agent-context-lint.yml"), name := .text (js "selected")
      provenance := inertText (js "b06.configuration"), rawValue := name
      scope := repositoryRoot, value := .text name }]

def recorded (record : WorkspaceRecord) (category : EvidenceFactCategory)
    (name rawValue value : Text) : DraftFact where
  category := category
  certainty := if record.state = .complete then .declared else .uncertain
  location := record.location
  name := .text name
  provenance := ⟨record.recognizerId, .workspaceEvidence, record.state⟩
  rawValue := rawValue
  scope := record.root
  value := .text value

def recordFacts (record : WorkspaceRecord) : List DraftFact :=
  recorded record .manifest record.family (record.projectName.getD record.family)
      record.state.text ::
    match record.packageManager with
    | none => []
    | some manager =>
      if record.family = js "javascript-package" then []
      else [recorded record .packageManager (js "selected") manager
        ((packageManagerName manager).getD manager)]

/-! ## Files -/

inductive ReadKind
  | cargo
  | ci
  | go
  | just
  | make
  | packageJson
  | pyproject
  | runtime
  | taskJson
  deriving DecidableEq

def completeManifestPaths (workspace : Workspace) : List Text :=
  (workspace.evidence.filter (·.state = .complete)).map (·.path)

/-- `(?:^|\/)\.cargo\/config(?:\.toml)?$` -/
def isCargoConfig (path : RelativePath) : Bool :=
  [".cargo/config", ".cargo/config.toml"].any fun name =>
    path == js name || (js ("/" ++ name)).isSuffixOf path

def readKind (complete : List Text) : Option ReadKind :=
  let base := basename path
  let isManifest (name : String) : Prop := base = js name ∧ path ∈ complete
  if isManifest "package.json" then some .packageJson
  else if isManifest "Cargo.toml" ∨ isCargoConfig path then some .cargo
  else if isManifest "pyproject.toml" then some .pyproject
  else if isManifest "go.mod" then some .go
  else if base ∈ ["Makefile", "makefile", "GNUmakefile"].map js then some .make
  else if base ∈ ["Justfile", "justfile"].map js then some .just
  else if base ∈ runtimeBasenames then some .runtime
  else if isWorkflowPath path then some .ci
  else if isManifest "nx.json" ∨ isManifest "turbo.json" then some .taskJson
  else none

/-- The loop of `validateText`: the length of the line so far, and the number of lines. -/
def textFits (limits : EvidenceIndexLimits) : (lineLength lines : Nat) → Text → Bool
  | _, _, [] => true
  | lineLength, lines, u :: rest =>
    let lineLength := if u = 0x0a then 0 else lineLength + 1
    let lines := if u = 0x0a then lines + 1 else lines
    lineLength ≤ limits.maximumLineLength && lines ≤ limits.maximumLines &&
      textFits limits lineLength lines rest

def readBytes (bytes : List UInt8) : Collection (Option TextDocument) := do
  modify fun context => { context with contentReads := context.contentReads + 1 }
  let context ← get
  stopIf (input.limits.maximumFiles < context.contentReads ∨
      input.limits.maximumFileBytes < bytes.length ∨
      input.limits.maximumTotalBytes < context.totalBytes + bytes.length)
    (limitExceeded "evidence byte or file limit exceeded" "read-evidence" (some path))
  modify fun context => { context with totalBytes := context.totalBytes + bytes.length }
  match decodeWithoutBom bytes with
  | none => do
    addIssue input ⟨.invalidSyntax, pathLocation path, js "evidence file is not valid UTF-8"⟩
    return none
  | some text => do
    stopIf (¬ textFits input.limits 0 1 text)
      (limitExceeded "evidence text limit exceeded" "parse" (some path))
    return some ⟨path, text⟩

def readText (path : RelativePath) : Collection (Option TextDocument) := do
  checkpoint input "read-evidence" (some path)
  match input.readFile path with
  | .bytes bytes => readBytes input path bytes
  | .refused code => do
    stopIf (code = js "READ_ONLY_REPOSITORY_ABORTED")
      ⟨.aborted, "repository read was aborted", "read-evidence", some path⟩
    stopIf (code = js "READ_ONLY_REPOSITORY_DEADLINE_EXCEEDED")
      ⟨.deadlineExceeded, "repository read deadline exceeded", "read-evidence", some path⟩
    addIssue input ⟨.unavailable, pathLocation path,
      js "evidence file could not be read safely (" ++ code ++ js ")"⟩
    return none

/-! ## Budgets -/

def budgetExceeded (message : String) (path : RelativePath) : EvidenceIndexError :=
  limitExceeded message "parse-json" (some path)

def countNode (depth : Nat) : Collection Unit := do
  modify fun context => { context with nodeCount := context.nodeCount + 1 }
  stopIf (input.limits.maximumNodes < (← get).nodeCount ∨ input.limits.maximumDepth < depth)
    (budgetExceeded "JSON structure limit exceeded" path)

mutual

/-- The loop of `jsonBudget` in the order of its stack: the children of a value, the last one
first. -/
def jsonBudget (path : RelativePath) (depth : Nat) : ParsedJson → Collection Unit
  | .null => countNode input path depth
  | .boolean _ => countNode input path depth
  | .number => countNode input path depth
  | .string text => do
    countNode input path depth
    stopIf (input.limits.maximumStringLength < text.length)
      (budgetExceeded "JSON string limit exceeded" path)
  | .array items => do
    countNode input path depth
    itemsBudget path (depth + 1) items
  | .object fields => do
    countNode input path depth
    stopIf (∃ field ∈ fields, input.limits.maximumStringLength < field.1.length)
      (budgetExceeded "JSON key limit exceeded" path)
    fieldsBudget path (depth + 1) fields

def itemsBudget (path : RelativePath) (depth : Nat) : List ParsedJson → Collection Unit
  | [] => pure ()
  | item :: rest => do
    itemsBudget path depth rest
    jsonBudget path depth item

def fieldsBudget (path : RelativePath) (depth : Nat) : List (Text × ParsedJson) → Collection Unit
  | [] => pure ()
  | (_, value) :: rest => do
    fieldsBudget path depth rest
    jsonBudget path depth value

end

/-- A manifest that is JSON is measured before anything is read from it. -/
def budget (kind : ReadKind) (document : TextDocument) : Collection Unit :=
  if kind = .packageJson ∨ kind = .taskJson then
    match ParsedJson.parse document.text with
    | none => pure ()
    | some value => jsonBudget input document.path 0 value
  else pure ()

def parseDocument (document : TextDocument) : ReadKind → List Emission
  | .packageJson => parsePackageJson document
  | .make => parseMake document
  | .just => parseJust document
  | .cargo => parseKeyValueDocument document .cargo
  | .go => parseKeyValueDocument document .go
  | .pyproject => parseKeyValueDocument document .pyproject
  | .runtime => parseRuntimeFile document
  | .ci => parseCi document
  | .taskJson => parseTaskJson document

def collectFile (path : RelativePath) : Collection Unit :=
  match readKind path (completeManifestPaths input.workspace) with
  | none => pure ()
  | some kind => do
    match ← readText input path with
    | none => pure ()
    | some document => do
      budget input kind document
      emitAll input (parseDocument document kind)

def collectPath (path : RelativePath) : Collection Unit := do
  checkpoint input "index-path" (some path)
  (pathFacts path).forM (addFact input)

def collect : Collection Unit := do
  snapshotPaths input
  snapshotWorkspace input
  (configurationFacts input.configuredPackageManager).forM (addFact input)
  input.paths.forM (collectPath input)
  (input.workspace.evidence.flatMap recordFacts).forM (addFact input)
  input.paths.forM (collectFile input)
  checkpoint input "publish" none

/-! ## Publication -/

/-- `compareText` of two values: identical ones are equal, others are compared as texts. -/
def compareValues (left right : Value) : Ordering :=
  if left = right then .eq
  else if compareUnits left.toText right.toText = .lt then .lt
  else .gt

def compareFacts (left right : DraftFact) : Ordering :=
  (compareUnits left.scope right.scope).then <|
  (compareUnits left.category.text right.category.text).then <|
  (compareValues left.name right.name).then <|
  (compareValues left.value right.value).then <|
  (compareUnits left.location.path right.location.path).then <|
  (compare left.location.start.byteOffset right.location.start.byteOffset).then <|
  compareUnits left.rawValue right.rawValue

/-- `evidence:` and the number from one on, of at least eight digits. -/
def factId (index : Nat) : Text :=
  let digits := Netstring.decimalText (index + 1)
  js "evidence:" ++ List.replicate (8 - digits.length) 0x30 ++ digits

def publish (facts : List DraftFact) : List EvidenceFact :=
  (sortBy compareFacts facts).mapIdx fun index fact => { fact with id := factId index }

def conflictCategories : List EvidenceFactCategory := [.packageManager, .runtime, .script, .task]

def groupKey (fact : DraftFact) : Text :=
  fact.category.text ++ [0] ++ fact.scope ++ [0] ++ fact.name.toText

def groupsOf (facts : List EvidenceFact) : OrderedMap Text (List EvidenceFact) :=
  OrderedMap.group (fun fact => groupKey fact.toDraftFact)
    (facts.filter fun fact => fact.category ∈ conflictCategories)

def conflictOf (group : List EvidenceFact) : Option EvidenceConflict :=
  let values := sortBy (fun left right => compareUnits left.toText right.toText)
    (group.map (·.value)).dedup
  match group with
  | [] => none
  | first :: _ =>
    if values.length < 2 then none
    else some {
      category := first.category
      factIds := sortBy compareUnits (group.map (·.id))
      name := first.name
      scope := first.scope
      values }

def compareConflicts (left right : EvidenceConflict) : Ordering :=
  (compareUnits left.scope right.scope).then <|
  (compareUnits left.category.text right.category.text).then <|
  compareValues left.name right.name

def buildConflicts (facts : List EvidenceFact) : List EvidenceConflict :=
  sortBy compareConflicts ((groupsOf facts).values.filterMap conflictOf)

def compareIssues (left right : EvidenceIndexIssue) : Ordering :=
  (compareUnits left.location.path right.location.path).then <|
  (compare left.location.start.byteOffset right.location.start.byteOffset).then <|
  (compareUnits left.code.text right.code.text).then <|
  compareUnits left.message right.message

structure EvidenceIndexMetrics where
  conflictCount : Nat
  contentReads : Nat
  factCount : Nat
  issueCount : Nat
  pathCount : Nat
  totalBytes : Nat

structure RepositoryEvidenceIndex where
  conflicts : List EvidenceConflict
  facts : List EvidenceFact
  issues : List EvidenceIndexIssue
  limits : EvidenceIndexLimits
  metrics : EvidenceIndexMetrics
  isUncertain : Bool
  uncertaintyReasons : List Text

def issueReason (issue : EvidenceIndexIssue) : Text :=
  issue.location.path ++ js ":" ++ issue.code.text

def indexOfContext (context : Context) : RepositoryEvidenceIndex :=
  let facts := publish context.facts
  let conflicts := buildConflicts facts
  let issues := sortBy compareIssues context.issues
  let reasons := sortBy compareUnits
    (input.workspace.uncertaintyReasons ++ issues.map issueReason).dedup
  { conflicts, facts, issues
    limits := input.limits
    metrics := {
      conflictCount := conflicts.length
      contentReads := context.contentReads
      factCount := facts.length
      issueCount := issues.length
      pathCount := input.paths.length
      totalBytes := context.totalBytes }
    isUncertain := !reasons.isEmpty
    uncertaintyReasons := reasons }

/-- The index, and the objects of the realm that are frozen. -/
def collectRepositoryEvidence :
    Except EvidenceIndexError (RepositoryEvidenceIndex × List Text) := do
  let ((), context) ← collect input Context.started
  return (indexOfContext input context, context.frozen)

end AgentContextLint.EvidenceIndex
