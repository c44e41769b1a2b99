import AgentContextLint.Core.ConfigurationContracts
import AgentContextLint.Lib.Checked
import AgentContextLint.Lib.JsValue
import AgentContextLint.Lib.Netstring
import AgentContextLint.Lib.OrderedMap
import AgentContextLint.Lib.Sorting
import AgentContextLint.Lib.UnitPattern

/-!
# Organization policies

Model of `packages/core/src/organization-policy.ts`: the validation of a policy pack and of the
override layers of a repository and a command line, and the resolution of what they assign.

Validators collect issues, and the source keeps the first 256 of a list; here a validator returns
all of its issues, and `bounded` keeps the first ones where a list ends up. Locations come from a
provider of the caller, whose answers are normalized. `toLowerCase` is a parameter.
-/

namespace AgentContextLint

open Utf16 Sorting
open JsValue (get keys)
open UnitPattern (inRange isDigit)

/-! ## Contracts -/

inductive OrganizationPolicyAuthority
  | default
  | enforced
  deriving DecidableEq

inductive OrganizationPolicySettingId
  | packageManager
  | alwaysOnTokens
  | effectiveP95Tokens
  | budgetFit
  | crossAgentConsistency
  | instructionDensity
  | nonRedundancy
  | reachability
  | scopePrecision
  | gradeA
  | gradeB
  | gradeC
  | gradeD
  | scoreVersion
  | tokenizer
  | channel
  | maxAgeDays
  | requireCurrentInCI
  deriving DecidableEq

namespace OrganizationPolicySettingId

/-- `ORGANIZATION_POLICY_SETTING_IDS` -/
def all : List OrganizationPolicySettingId :=
  [packageManager, alwaysOnTokens, effectiveP95Tokens, budgetFit, crossAgentConsistency,
    instructionDensity, nonRedundancy, reachability, scopePrecision, gradeA, gradeB, gradeC, gradeD,
    scoreVersion, tokenizer, channel, maxAgeDays, requireCurrentInCI]

def text : OrganizationPolicySettingId → Text
  | packageManager => js "commands.packageManager"
  | alwaysOnTokens => js "efficiency.budgets.alwaysOnTokens"
  | effectiveP95Tokens => js "efficiency.budgets.effectiveP95Tokens"
  | budgetFit => js "efficiency.componentWeights.budgetFit"
  | crossAgentConsistency => js "efficiency.componentWeights.crossAgentConsistency"
  | instructionDensity => js "efficiency.componentWeights.instructionDensity"
  | nonRedundancy => js "efficiency.componentWeights.nonRedundancy"
  | reachability => js "efficiency.componentWeights.reachability"
  | scopePrecision => js "efficiency.componentWeights.scopePrecision"
  | gradeA => js "efficiency.gradeThresholds.A"
  | gradeB => js "efficiency.gradeThresholds.B"
  | gradeC => js "efficiency.gradeThresholds.C"
  | gradeD => js "efficiency.gradeThresholds.D"
  | scoreVersion => js "efficiency.scoreVersion"
  | tokenizer => js "efficiency.tokenizer"
  | channel => js "standards.channel"
  | maxAgeDays => js "standards.maxAgeDays"
  | requireCurrentInCI => js "standards.requireCurrentInCI"

def ofText (s : Text) : Option OrganizationPolicySettingId := all.find? fun id => id.text = s

end OrganizationPolicySettingId

structure OrganizationPolicyCapabilities where
  engineVersion : Text
  ruleIds : List Text
  ruleRegistryVersion : Text

structure OrganizationPolicyCompatibility where
  minimumEngineVersion : Text
  ruleRegistryVersion : Text
  deriving DecidableEq

structure OrganizationPolicyProvenance where
  approvedBy : Text
  approvedPath : RelativePath
  approvedSha256 : Text
  reviewedAt : Text
  revision : Option Text
  deriving DecidableEq

inductive OrganizationPolicyTarget
  | profile (profileId : ConfigurationProfileId)
  | rule (ruleId : Text)
  | setting (settingId : OrganizationPolicySettingId)
  | surface (profileId : ConfigurationProfileId) (surfaceId : ConfigurationSurfaceId)
  deriving DecidableEq

/-- `OrganizationPolicyValue`, with the record of a rule's value as `rule`. -/
inductive OrganizationPolicyValue
  | boolean (b : Bool)
  | number (n : Int)
  | string (text : Text)
  | rule (maxTokens : Option Int) (severity : ConfigurationRuleSeverity)
  deriving DecidableEq

structure OrganizationPolicyEntry where
  authority : OrganizationPolicyAuthority
  id : Text
  target : OrganizationPolicyTarget
  value : OrganizationPolicyValue
  deriving DecidableEq

structure OrganizationPolicyPack where
  compatibility : OrganizationPolicyCompatibility
  packId : Text
  packVersion : Text
  policies : List OrganizationPolicyEntry
  provenance : OrganizationPolicyProvenance
  deriving DecidableEq

structure OrganizationPolicyPackOrigin where
  sha256 : Text
  path : RelativePath
  deriving DecidableEq

/-- What `validateOrganizationPolicyPack` returns; the source knows such values by their
identity. -/
structure ValidatedOrganizationPolicyPack where
  document : OrganizationPolicyPack
  origin : OrganizationPolicyPackOrigin
  policyLocations : OrderedMap Text (Option ConfigurationSourceLocation)
  deriving DecidableEq

/-- The callbacks of a caller, their answers normalized; `locateKey` may throw. -/
structure OrganizationPolicyLocationProvider where
  locate : Text → Option ConfigurationSourceLocation
  locateKey : Text → Text → Except Unit (Option ConfigurationSourceLocation)

inductive OrganizationPolicyIssueCode
  | conflict
  | duplicateId
  | duplicateTarget
  | forbiddenField
  | invalidCapabilities
  | invalidValue
  | missingField
  | resourceLimit
  | unknownField
  | unsupportedTarget
  | unsupportedVersion
  deriving DecidableEq

def OrganizationPolicyIssueCode.text : OrganizationPolicyIssueCode → Text
  | .conflict => js "conflict"
  | .duplicateId => js "duplicate-id"
  | .duplicateTarget => js "duplicate-target"
  | .forbiddenField => js "forbidden-field"
  | .invalidCapabilities => js "invalid-capabilities"
  | .invalidValue => js "invalid-value"
  | .missingField => js "missing-field"
  | .resourceLimit => js "resource-limit"
  | .unknownField => js "unknown-field"
  | .unsupportedTarget => js "unsupported-target"
  | .unsupportedVersion => js "unsupported-version"

structure OrganizationPolicyIssue where
  code : OrganizationPolicyIssueCode
  location : Option ConfigurationSourceLocation
  message : Text
  path : Text
  relatedLocation : Option ConfigurationSourceLocation
  deriving DecidableEq

inductive OrganizationPolicyOverrideSource
  | cli (argument : Text)
  | repository (location : ConfigurationSourceLocation)
  deriving DecidableEq

structure OrganizationPolicyOverride where
  id : Text
  source : OrganizationPolicyOverrideSource
  target : OrganizationPolicyTarget
  value : OrganizationPolicyValue
  deriving DecidableEq

inductive OrganizationPolicyAssignmentSource
  | cli (argument : Text)
  | organization (authority : OrganizationPolicyAuthority) (policyId : Text)
      (location : Option ConfigurationSourceLocation)
  | repository (location : ConfigurationSourceLocation)
  deriving DecidableEq

structure ResolvedOrganizationPolicyAssignment where
  source : OrganizationPolicyAssignmentSource
  target : OrganizationPolicyTarget
  targetKey : Text
  value : OrganizationPolicyValue
  deriving DecidableEq

inductive OrganizationPolicyAction
  | confirmed
  | selected
  | overridden
  deriving DecidableEq

def OrganizationPolicyAction.text : OrganizationPolicyAction → Text
  | .confirmed => js "confirmed"
  | .selected => js "selected"
  | .overridden => js "overridden"

structure OrganizationPolicyResolutionEvent where
  action : OrganizationPolicyAction
  previousSource : Option OrganizationPolicyAssignmentSource
  source : OrganizationPolicyAssignmentSource
  targetKey : Text
  deriving DecidableEq

namespace OrganizationPolicy

abbrev Validated (α : Type) := Checked OrganizationPolicyIssue α

/-! ## Limits -/

def maximumContainerEntries : Nat := 2048
def maximumIssues : Nat := 256
def maximumKeyBytes : Nat := 256
def maximumPolicies : Nat := 512
def maximumStringBytes : Nat := 4096
def maximumTotalStringBytes : Nat := 65536
def maximumValues : Nat := 4096
def maximumIssueMessageBytes : Nat := 1024
def maximumIssuePathBytes : Nat := 4096
def maximumLocationPathBytes : Nat := 1024

def bounded (issues : List OrganizationPolicyIssue) : List OrganizationPolicyIssue :=
  issues.take maximumIssues

/-! ## Texts -/

/-- A unit that may stand outside a surrogate pair. -/
def isSafeUnit (unit : CodeUnit) : Bool :=
  let n := unit.toNat
  !(isLowSurrogate unit || n ≤ 0x1f || n == 0x7f || n == 0xfeff || (0x202a ≤ n && n ≤ 0x202e) ||
    (0x2066 ≤ n && n ≤ 0x2069) || n == 0x200e || n == 0x200f || (0xfdd0 ≤ n && n ≤ 0xfdef) ||
    0xfffe ≤ n)

def hasSafeUnicode : Text → Bool
  | [] => true
  | [unit] => !isHighSurrogate unit && isSafeUnit unit
  | unit :: next :: rest =>
    if isHighSurrogate unit then
      let codePoint := (unit.toNat - 0xd800) * 0x400 + (next.toNat - 0xdc00) + 0x10000
      isLowSurrogate next && !decide (0xfffe ≤ codePoint % 0x10000) && hasSafeUnicode rest
    else isSafeUnit unit && hasSafeUnicode (next :: rest)

def fitsSafeUtf8 (value : Text) (maximumBytes : Nat) : Bool :=
  decide (value.length ≤ maximumBytes) && hasSafeUnicode value &&
    decide (Utf8.byteLength value ≤ maximumBytes)

def boundedIssuePath (path : Text) : Text :=
  if fitsSafeUtf8 path maximumIssuePathBytes then path else js "$"

/-- `STABLE_ID`: runs of letters and digits with single separators between them. -/
def isStableId (value : Text) : Bool :=
  (value.splitOnP fun u => (js "._:/-").contains u).all fun run =>
    !run.isEmpty && run.all UnitPattern.isAlphanumeric

/-- `RULE_ID` -/
def isRuleId (value : Text) : Bool :=
  value.length == 6 && (js "ACL").isPrefixOf value && (value.drop 3).all isDigit

/-- `SHA256` -/
def isSha256 (value : Text) : Bool :=
  value.length == 64 && value.all fun u => isDigit u || inRange 0x61 0x66 u

/-! ## Versions and dates -/

structure Semver where
  major : Text
  minor : Text
  patch : Text
  prerelease : Option Text
  deriving DecidableEq

def isNumericIdentifier (s : Text) : Bool :=
  !s.isEmpty && s.all isDigit && (s.length == 1 || s.head? != some 0x30)

def isBuildIdentifier (s : Text) : Bool :=
  !s.isEmpty && s.all fun u => UnitPattern.isAlphanumeric u || u == 0x2d

def isPrereleaseIdentifier (s : Text) : Bool :=
  isBuildIdentifier s && (!s.all isDigit || isNumericIdentifier s)

/-- A text in front of the first unit of its kind, and what is behind that unit. -/
def cutAt (unit : CodeUnit) (s : Text) : Text × Option Text :=
  (s.takeWhile (· != unit), if s.contains unit then some ((s.dropWhile (· != unit)).drop 1) else none)

/-- `SEMVER` with its groups; builds have no plus and cores no hyphen. -/
def parseSemver (value : Text) : Option Semver :=
  let (front, build) := cutAt 0x2b value
  let (core, prerelease) := cutAt 0x2d front
  match core.splitOn 0x2e with
  | [major, minor, patch] =>
    if isNumericIdentifier major && isNumericIdentifier minor && isNumericIdentifier patch &&
        prerelease.all (fun text => (text.splitOn 0x2e).all isPrereleaseIdentifier) &&
        build.all (fun text => (text.splitOn 0x2e).all isBuildIdentifier) then
      some { major, minor, patch, prerelease }
    else none
  | _ => none

def compareNumericText (left right : Text) : Ordering :=
  if left.length = right.length then compareUnits left right else compare left.length right.length

/-- The loop over the identifiers of two prereleases. -/
def comparePrereleases : List Text → List Text → Ordering
  | a :: aParts, b :: bParts =>
    if a = b then comparePrereleases aParts bParts
    else if a.all isDigit && b.all isDigit then compareNumericText a b
    else if a.all isDigit then .lt
    else if b.all isDigit then .gt
    else compareUnits a b
  | aParts, bParts => compare aParts.length bParts.length

def compareSemver (left right : Text) : Option Ordering := do
  let a ← parseSemver left
  let b ← parseSemver right
  let cores := (compareNumericText a.major b.major).then
    ((compareNumericText a.minor b.minor).then (compareNumericText a.patch b.patch))
  return cores.then <|
    match a.prerelease, b.prerelease with
    | none, none => .eq
    | none, some _ => .gt
    | some _, none => .lt
    | some a, some b => if a = b then .eq else comparePrereleases (a.splitOn 0x2e) (b.splitOn 0x2e)

/-- The number that digits write. -/
def digitsValue (s : Text) : Nat := s.foldl (fun n u => n * 10 + (u.toNat - 0x30)) 0

/-- The days of a month of the proleptic Gregorian calendar. -/
def daysInMonth (year month : Nat) : Nat :=
  if month = 2 then if year % 4 = 0 ∧ (year % 100 ≠ 0 ∨ year % 400 = 0) then 29 else 28
  else if month = 4 ∨ month = 6 ∨ month = 9 ∨ month = 11 then 30
  else 31

/-- `DATE`, and the day exists. `Date.UTC` takes the years below 100 for later ones, which are then
other years than were written. -/
def isExactDate (value : Text) : Bool :=
  match value.splitOn 0x2d with
  | [year, month, day] =>
    year.length == 4 && year.all isDigit && month.length == 2 &&
      month.all isDigit && day.length == 2 && day.all isDigit &&
      decide (100 ≤ digitsValue year) && decide (1 ≤ digitsValue month) &&
      decide (digitsValue month ≤ 12) && decide (1 ≤ digitsValue day) &&
      decide (digitsValue day ≤ daysInMonth (digitsValue year) (digitsValue month))
  | _ => false

/-! ## Issues -/

def noProvider : OrganizationPolicyLocationProvider := ⟨fun _ => none, fun _ _ => .ok none⟩

def sourceLocation (options : OrganizationPolicyLocationProvider) (path : Text) :
    Option ConfigurationSourceLocation := options.locate (boundedIssuePath path)

def keySourceLocation (options : OrganizationPolicyLocationProvider) (parentPath key : Text) :
    Option ConfigurationSourceLocation :=
  let boundedKey := if fitsSafeUtf8 key maximumKeyBytes then key else js "field"
  match options.locateKey (boundedIssuePath parentPath) boundedKey with
  | .ok (some located) => some located
  | .ok none => sourceLocation options (boundedIssuePath parentPath ++ js "." ++ boundedKey)
  | .error () => sourceLocation options (boundedIssuePath parentPath)

def issue (code : OrganizationPolicyIssueCode) (path message : Text)
    (options : OrganizationPolicyLocationProvider) : OrganizationPolicyIssue where
  code := code
  location := sourceLocation options (boundedIssuePath path)
  message :=
    if fitsSafeUtf8 message maximumIssueMessageBytes then message
    else js "organization policy input is invalid"
  path := boundedIssuePath path
  relatedLocation := none

/-- The order of `sortIssues`. -/
def compareIssues (left right : OrganizationPolicyIssue) : Ordering :=
  (compareUnits left.path right.path).then
    ((compareUnits left.code.text right.code.text).then (compareUnits left.message right.message))

def sortIssues (issues : List OrganizationPolicyIssue) : List OrganizationPolicyIssue :=
  sortBy compareIssues issues

/-! ## The JSON boundary -/

section Boundary

variable (toLowerCase : Text → Text)

/-- `FORBIDDEN_FIELD_NAMES` -/
def forbiddenFieldNames : List Text :=
  [js "callback", js "code", js "command", js "eval", js "executable", js "expression",
    js "function", js "glob", js "handler", js "module", js "network", js "plugin", js "regex",
    js "require", js "script", js "template"]

def exoticMessage : JsExotic → Text
  | .notJson => js "must contain JSON values only"
  | .repeated => js "must not contain cycles or repeated object identities"
  | .proxy => js "must not contain proxies"
  | .irregularArray => js "must be a dense JSON array without extra properties"
  | .accessor => js "must not contain accessors"
  | .classInstance => js "must be a plain JSON object"

def fieldIssues (options : OrganizationPolicyLocationProvider) (path key : Text) :
    List OrganizationPolicyIssue :=
  if !fitsSafeUtf8 key maximumKeyBytes then
    [issue .invalidValue path (js "contains an invalid or oversized object key") options]
  else if forbiddenFieldNames.contains (toLowerCase key) then
    [issue .forbiddenField (boundedIssuePath (path ++ js "." ++ key))
      (js "field '" ++ key ++ js "' would cross the data-only capability boundary") options]
  else []

def itemPath (path : Text) (index : Nat) : Text :=
  path ++ js "[" ++ Netstring.decimalText index ++ js "]"

/-- The children of a node with their paths, the next one first: the last field of an object, and
the first item of an array. -/
def children (path : Text) : JsValue → List (Text × JsValue)
  | .array items => items.zipIdx.map fun (item, index) => (boundedIssuePath (itemPath path index), item)
  | .object fields => (fields.filter fun field => fitsSafeUtf8 field.1 maximumKeyBytes).reverse.map
      fun field => (boundedIssuePath (path ++ js "." ++ field.1), field.2)
  | _ => []

/-- What is said of a node by itself, and whether its children are looked at. -/
def nodeIssues (options : OrganizationPolicyLocationProvider) (path : Text) :
    JsValue → List OrganizationPolicyIssue × Bool
  | .undefined => ([issue .invalidValue path (exoticMessage .notJson) options], false)
  | .null | .boolean _ => ([], false)
  | .number (.integer _) | .number (.fractional _) => ([], false)
  | .number _ => ([issue .invalidValue path (js "must be an I-JSON number") options], false)
  | .string text =>
    if fitsSafeUtf8 text maximumStringBytes then ([], false)
    else ([issue .invalidValue path
      (js "must be safe well-formed Unicode within the per-string UTF-8 limit") options], false)
  | .array items =>
    if maximumContainerEntries < items.length then
      ([issue .resourceLimit path (js "exceeds the maximum container entries") options], false)
    else ([], true)
  | .object fields =>
    if maximumContainerEntries < fields.length then
      ([issue .resourceLimit path (js "exceeds the maximum container entries") options], false)
    else (fields.flatMap fun field => fieldIssues toLowerCase options path field.1, true)
  | .exotic kind => ([issue .invalidValue path (exoticMessage kind) options], false)

/-- The bytes that a node adds to the total. -/
def nodeBytes : JsValue → Nat
  | .string text => if fitsSafeUtf8 text maximumStringBytes then Utf8.byteLength text else 0
  | _ => 0

/-- The loop over the stack, with the number of values that may still come. -/
def boundaryLoop (options : OrganizationPolicyLocationProvider) :
    (remaining totalStringBytes : Nat) → List (Text × JsValue) →
      List OrganizationPolicyIssue → List OrganizationPolicyIssue
  | _, _, [], issues => issues
  | 0, _, (path, _) :: _, issues =>
    if maximumIssues ≤ issues.length then issues
    else issues ++ [issue .resourceLimit path (js "exceeds the maximum JSON value count") options]
  | remaining + 1, totalStringBytes, (path, value) :: stack, issues =>
    if maximumIssues ≤ issues.length then issues
    else
      let total := totalStringBytes + nodeBytes value
      if maximumTotalStringBytes < total then
        issues ++ [issue .resourceLimit path (js "exceeds the aggregate UTF-8 string limit") options]
      else
        let (found, deeper) := nodeIssues toLowerCase options path value
        boundaryLoop options remaining total (if deeper then children path value ++ stack else stack)
          (issues ++ found)

def validateJsonBoundary (value : JsValue) (options : OrganizationPolicyLocationProvider) :
    List OrganizationPolicyIssue :=
  sortIssues (bounded (boundaryLoop toLowerCase options maximumValues 0 [(js "$", value)] []))

/-! ## Fields of records -/

abbrev Fields := List (Text × JsValue)

/-- The fields of a plain object, with an issue for each one that is not allowed. -/
def exactObject (value : JsValue) (path : Text) (allowed : List Text)
    (options : OrganizationPolicyLocationProvider) : Validated (Option Fields) :=
  match value with
  | .object fields =>
    ⟨some fields, ((keys fields).filter fun key => !allowed.contains key).map fun key =>
      { issue .unknownField (path ++ js "." ++ key)
          (js "field '" ++ key ++ js "' is not part of the closed contract") options with
        location := keySourceLocation options path key }⟩
  | _ => ⟨none, [issue .invalidValue path (js "must be an object") options]⟩

def requiredString (record : Fields) (key : String) (path : Text)
    (options : OrganizationPolicyLocationProvider) (maximumBytes : Nat) : Validated (Option Text) :=
  let fieldPath := path ++ js "." ++ js key
  match get record (js key) with
  | .undefined => ⟨none, [issue .missingField fieldPath (js "is required") options]⟩
  | .string value =>
    if value = [] ∨ fitsSafeUtf8 value maximumBytes = false then
      ⟨none, [issue .invalidValue fieldPath (js "must be non-empty well-formed Unicode within " ++
        Netstring.decimalText maximumBytes ++ js " UTF-8 bytes") options]⟩
    else ⟨some value, []⟩
  | _ => ⟨none, [issue .invalidValue fieldPath (js "must be non-empty well-formed Unicode within " ++
      Netstring.decimalText maximumBytes ++ js " UTF-8 bytes") options]⟩

def validStableId (value : Option Text) (path : Text)
    (options : OrganizationPolicyLocationProvider) : Validated Bool :=
  match value with
  | none => pure false
  | some value =>
    if isStableId value then pure true
    else ⟨false, [issue .invalidValue path (js "must be a stable identifier") options]⟩

/-! ## Capabilities -/

/-- The loop over the rule identifiers, with those that were seen. -/
def capabilityRuleIds (options : OrganizationPolicyLocationProvider) :
    (index : Nat) → (seen : List Text) → List JsValue → Validated (List Text)
  | _, seen, [] => pure seen
  | index, seen, value :: rest =>
    let path := itemPath (js "$capabilities.ruleIds") index
    match value.text? with
    | some ruleId =>
      if isRuleId ruleId = false then do
        .push (issue .invalidCapabilities path (js "must be an ACL rule ID") options)
        capabilityRuleIds options (index + 1) seen rest
      else if ruleId ∈ seen then do
        .push (issue .invalidCapabilities path (js "duplicates '" ++ ruleId ++ js "'") options)
        capabilityRuleIds options (index + 1) seen rest
      else capabilityRuleIds options (index + 1) (seen ++ [ruleId]) rest
    | none => do
      .push (issue .invalidCapabilities path (js "must be an ACL rule ID") options)
      capabilityRuleIds options (index + 1) seen rest

def capabilityVersion (record : Fields) (key : String)
    (options : OrganizationPolicyLocationProvider) : Validated Text :=
  match (get record (js key)).text? with
  | some version =>
    if fitsSafeUtf8 version 128 && (parseSemver version).isSome then pure version
    else ⟨[], [issue .invalidCapabilities (js "$capabilities." ++ js key)
      (js "must be an exact SemVer") options]⟩
  | none => ⟨[], [issue .invalidCapabilities (js "$capabilities." ++ js key)
      (js "must be an exact SemVer") options]⟩

/-- The capabilities, which count only without an issue; the rules that are known count anyway. -/
def validateCapabilities (input : JsValue) (options : OrganizationPolicyLocationProvider) :
    Validated OrganizationPolicyCapabilities :=
  if validateJsonBoundary toLowerCase input noProvider ≠ [] then
    ⟨⟨[], [], []⟩, [issue .invalidCapabilities (js "$capabilities")
      (js "must be a closed accessor-free capabilities object") options]⟩
  else do
    let record ← exactObject input (js "$capabilities")
      [js "engineVersion", js "ruleIds", js "ruleRegistryVersion"] options
    match record with
    | none => return ⟨[], [], []⟩
    | some record => do
      let engineVersion ← capabilityVersion record "engineVersion" options
      let ruleRegistryVersion ← capabilityVersion record "ruleRegistryVersion" options
      let ruleIds ← match get record (js "ruleIds") with
        | .array items =>
          if 512 < items.length then
            ⟨[], [issue .invalidCapabilities (js "$capabilities.ruleIds")
              (js "must be an array of at most 512 registered rule IDs") options]⟩
          else capabilityRuleIds options 0 [] items
        | _ => ⟨[], [issue .invalidCapabilities (js "$capabilities.ruleIds")
            (js "must be an array of at most 512 registered rule IDs") options]⟩
      return { engineVersion, ruleIds, ruleRegistryVersion }

/-! ## Targets and values -/

def refuseFields (record : Fields) (names : List String) (path : Text) (kind : String)
    (options : OrganizationPolicyLocationProvider) : Validated Unit :=
  ⟨(), (names.filter fun name => !(get record (js name)).isUndefined).map fun name =>
    issue .unknownField (path ++ js "." ++ js name)
      (js "is not allowed for " ++ js kind ++ js " targets") options⟩

def unsupported (path : Text) (field : String) (message : Text)
    (options : OrganizationPolicyLocationProvider) : Validated (Option OrganizationPolicyTarget) :=
  ⟨none, [issue .unsupportedTarget (path ++ js "." ++ js field) message options]⟩

def validateProfileTarget (record : Fields) (path : Text)
    (options : OrganizationPolicyLocationProvider) : Validated (Option OrganizationPolicyTarget) := do
  refuseFields record ["ruleId", "settingId", "surfaceId"] path "profile" options
  let profileId ← requiredString record "profileId" path options 256
  match profileId with
  | none => return none
  | some profileId =>
    match ConfigurationProfileId.ofText profileId with
    | some profile => return some (.profile profile)
    | none => unsupported path "profileId" (js "profile '" ++ profileId ++ js "' is not registered") options

def validateSurfaceTarget (record : Fields) (path : Text)
    (options : OrganizationPolicyLocationProvider) : Validated (Option OrganizationPolicyTarget) := do
  refuseFields record ["ruleId", "settingId"] path "surface" options
  let profileId ← requiredString record "profileId" path options 256
  let surfaceId ← requiredString record "surfaceId" path options 256
  match profileId with
  | none => return none
  | some profileId =>
    match ConfigurationProfileId.ofText profileId with
    | none => unsupported path "profileId" (js "profile '" ++ profileId ++ js "' is not registered") options
    | some profile =>
      match surfaceId with
      | none => return none
      | some surfaceId =>
        match (configurationSurfacesByProfile profile).find? fun id => id.text = surfaceId with
        | some surface => return some (.surface profile surface)
        | none => unsupported path "surfaceId" (js "surface '" ++ surfaceId ++
            js "' is not registered for '" ++ profileId ++ js "'") options

def validateRuleTarget (record : Fields) (path : Text) (ruleIds : List Text)
    (options : OrganizationPolicyLocationProvider) : Validated (Option OrganizationPolicyTarget) := do
  refuseFields record ["profileId", "settingId", "surfaceId"] path "rule" options
  let ruleId ← requiredString record "ruleId" path options 256
  match ruleId with
  | none => return none
  | some ruleId =>
    if ruleId ∈ ruleIds then return some (.rule ruleId)
    else unsupported path "ruleId" (js "rule '" ++ ruleId ++
      js "' is not in the engine registry") options

def validateSettingTarget (record : Fields) (path : Text)
    (options : OrganizationPolicyLocationProvider) : Validated (Option OrganizationPolicyTarget) := do
  refuseFields record ["profileId", "ruleId", "surfaceId"] path "setting" options
  let settingId ← requiredString record "settingId" path options 256
  match settingId with
  | none => return none
  | some settingId =>
    match OrganizationPolicySettingId.ofText settingId with
    | some setting => return some (.setting setting)
    | none => unsupported path "settingId" (js "setting '" ++ settingId ++
        js "' is outside the closed organization-policy capability set") options

def validateTarget (value : JsValue) (path : Text) (ruleIds : List Text)
    (options : OrganizationPolicyLocationProvider) : Validated (Option OrganizationPolicyTarget) := do
  let record ← exactObject value path
    [js "kind", js "profileId", js "ruleId", js "settingId", js "surfaceId"] options
  match record with
  | none => return none
  | some record => do
    let kind ← requiredString record "kind" path options 32
    match kind with
    | none => return none
    | some kind =>
      if kind = js "profile" then validateProfileTarget record path options
      else if kind = js "surface" then validateSurfaceTarget record path options
      else if kind = js "rule" then validateRuleTarget record path ruleIds options
      else if kind = js "setting" then validateSettingTarget record path options
      else ⟨none, [issue .invalidValue (path ++ js ".kind")
        (js "unsupported target kind '" ++ kind ++ js "'") options]⟩

def wholeWithin (value : JsValue) (least most : Int) : Option OrganizationPolicyValue :=
  match value.integer? with
  | some n => if least ≤ n ∧ n ≤ most then some (.number n) else none
  | none => none

def oneOfTexts (value : JsValue) (texts : List Text) : Option OrganizationPolicyValue :=
  match value.text? with
  | some text => if text ∈ texts then some (.string text) else none
  | none => none

def boolean? : JsValue → Option OrganizationPolicyValue
  | .boolean b => some (.boolean b)
  | _ => none

def settingValue (setting : OrganizationPolicySettingId) (value : JsValue) :
    Option OrganizationPolicyValue :=
  match setting with
  | .packageManager => oneOfTexts value packageManagers
  | .channel => oneOfTexts value standardsChannels
  | .tokenizer => oneOfTexts value efficiencyTokenizers
  | .scoreVersion => oneOfTexts value efficiencyScoreVersions
  | .requireCurrentInCI => boolean? value
  | .maxAgeDays => wholeWithin value 1 365
  | .alwaysOnTokens | .effectiveP95Tokens => wholeWithin value 0 10000000
  | .budgetFit | .crossAgentConsistency | .instructionDensity | .nonRedundancy | .reachability
  | .scopePrecision => wholeWithin value 0 100
  | .gradeA | .gradeB | .gradeC | .gradeD => wholeWithin value 0 100

/-- The limit of a rule's value, if it is one: null or a whole number. -/
def maxTokens? : JsValue → Option (Option Int)
  | .null => some none
  | value =>
    match value.integer? with
    | some n => if 1 ≤ n ∧ n ≤ 10000000 then some (some n) else none
    | none => none

def validateRuleValue (value : JsValue) (path : Text)
    (options : OrganizationPolicyLocationProvider) : Validated (Option OrganizationPolicyValue) := do
  let record ← exactObject value path [js "maxTokens", js "severity"] options
  match record with
  | none => return none
  | some record => do
    let severity ← requiredString record "severity" path options 16
    let maxTokens := get record (js "maxTokens")
    .pushIf (maxTokens.isUndefined = true)
      (issue .missingField (path ++ js ".maxTokens") (js "is required") options)
    .pushIf ((maxTokens? maxTokens).isNone = true) (issue .invalidValue (path ++ js ".maxTokens")
      (js "must be null or an integer from 1 through 10000000") options)
    let registered := severity.bind ConfigurationRuleSeverity.ofText
    .pushIf (severity.isSome = true ∧ registered.isNone = true)
      (issue .invalidValue (path ++ js ".severity") (js "must be a registered rule severity") options)
    return (maxTokens? maxTokens).bind fun maxTokens => registered.map (.rule maxTokens)

def validateValue (value : JsValue) (target : OrganizationPolicyTarget) (path : Text)
    (options : OrganizationPolicyLocationProvider) : Validated (Option OrganizationPolicyValue) :=
  match target with
  | .profile _ | .surface _ _ =>
    match boolean? value with
    | some value => pure (some value)
    | none => ⟨none, [issue .invalidValue path (js "must be a boolean") options]⟩
  | .rule _ => validateRuleValue value path options
  | .setting setting =>
    match settingValue setting value with
    | some value => pure (some value)
    | none => ⟨none, [issue .invalidValue path
        (js "is not a valid value for '" ++ setting.text ++ js "'") options]⟩

def targetKey : OrganizationPolicyTarget → Text
  | .profile profileId => js "profile:" ++ profileId.text
  | .rule ruleId => js "rule:" ++ ruleId
  | .setting settingId => js "setting:" ++ settingId.text
  | .surface profileId surfaceId => js "surface:" ++ profileId.text ++ js ":" ++ surfaceId.text

/-! ## Policy packs -/

structure ValidateOrganizationPolicyPackOptions where
  capabilities : JsValue
  origin : JsValue
  provider : OrganizationPolicyLocationProvider

/-- `snapshotClosedObject` -/
def closedObject (value : JsValue) (allowed : List Text) : Option Fields :=
  match value with
  | .object fields => if (keys fields).all allowed.contains then some fields else none
  | _ => none

def isBelowRoot (path : Text) : Bool :=
  RepositoryPath.isRepositoryRelativePath path && path != RepositoryPath.repositoryRoot

def validateOrigin (record : Option Fields) (options : OrganizationPolicyLocationProvider) :
    Validated OrganizationPolicyPackOrigin := do
  let path := (record.bind fun fields => (get fields (js "path")).text?).filter fun path =>
    fitsSafeUtf8 path maximumLocationPathBytes && isBelowRoot path
  let sha256 := (record.bind fun fields => (get fields (js "sha256")).text?).filter isSha256
  .pushIf (path.isNone = true) (issue .invalidValue (js "$origin.path")
    (js "must be a canonical non-root repository-relative path") options)
  .pushIf (sha256.isNone = true) (issue .invalidValue (js "$origin.sha256")
    (js "must be a lowercase SHA-256 digest") options)
  return { sha256 := sha256.getD [], path := path.getD [] }

def mustEqual (record : Fields) (key : String) (isExpected : JsValue → Bool) (expected : Text)
    (options : OrganizationPolicyLocationProvider) : Validated Unit :=
  .pushIf (isExpected (get record (js key)) = false)
    (issue .unsupportedVersion (js "$.compatibility." ++ js key) (js "must equal " ++ expected) options)

def checkMinimumEngineVersion (minimum : Option Text)
    (capability : Option OrganizationPolicyCapabilities)
    (options : OrganizationPolicyLocationProvider) : Validated Unit :=
  let path := js "$.compatibility.minimumEngineVersion"
  match minimum.filter fun version => (parseSemver version).isSome with
  | none => .push (issue .invalidValue path (js "must be an exact SemVer") options)
  | some minimum =>
    let engine := (capability.map (·.engineVersion)).getD []
    .pushIf ((compareSemver engine minimum).getD .lt = .lt)
      (issue .unsupportedVersion path (js "requires a newer compatible engine") options)

def checkRuleRegistryVersion (registry : Option Text)
    (capability : Option OrganizationPolicyCapabilities)
    (options : OrganizationPolicyLocationProvider) : Validated Unit :=
  let path := js "$.compatibility.ruleRegistryVersion"
  match registry.filter fun version => (parseSemver version).isSome with
  | none => .push (issue .invalidValue path (js "must be an exact SemVer") options)
  | some registry =>
    .pushIf (capability.map (·.ruleRegistryVersion) ≠ some registry)
      (issue .unsupportedVersion path (js "does not match the engine rule registry") options)

def validateCompatibility (value : JsValue) (capability : Option OrganizationPolicyCapabilities)
    (options : OrganizationPolicyLocationProvider) :
    Validated (Option OrganizationPolicyCompatibility) := do
  let record ← exactObject value (js "$.compatibility") [js "configurationVersion",
    js "minimumEngineVersion", js "profileCatalogVersion", js "ruleRegistryVersion"] options
  match record with
  | none => return none
  | some record => do
    ⟨(), (["configurationVersion", "minimumEngineVersion", "profileCatalogVersion",
        "ruleRegistryVersion"].filter fun key => (get record (js key)).isUndefined).map
      fun key => issue .missingField (js "$.compatibility." ++ js key) (js "is required") options⟩
    mustEqual record "configurationVersion"
      (fun value => value.integer? == some configurationContractVersion) (js "1") options
    mustEqual record "profileCatalogVersion"
      (fun value => value.text? == some profileCatalogContractVersion)
      (js "'" ++ profileCatalogContractVersion ++ js "'") options
    let minimum := (get record (js "minimumEngineVersion")).text?
    let registry := (get record (js "ruleRegistryVersion")).text?
    checkMinimumEngineVersion minimum capability options
    checkRuleRegistryVersion registry capability options
    return minimum.bind fun minimum => registry.map (OrganizationPolicyCompatibility.mk minimum)

/-- The source of an approval, which is not the pack itself. -/
def validateApprovedSource (value : JsValue) (originPath : Text)
    (options : OrganizationPolicyLocationProvider) : Validated (Option (RelativePath × Text)) := do
  let at' := js "$.provenance.approvedSource"
  let record ← exactObject value at' [js "path", js "sha256"] options
  match record with
  | none => return none
  | some record => do
    let path ← requiredString record "path" at' options 1024
    let digest ← requiredString record "sha256" at' options 64
    .pushIf (path.isSome = true ∧ path.any isBelowRoot = false) (issue .invalidValue
      (at' ++ js ".path") (js "must be a canonical non-root repository-relative path") options)
    .pushIf (digest.isSome = true ∧ digest.any isSha256 = false) (issue .invalidValue
      (at' ++ js ".sha256") (js "must be a lowercase SHA-256 digest") options)
    .pushIf (path = some originPath) (issue .invalidValue (at' ++ js ".path")
      (js "must identify a separate approval record rather than the pack itself") options)
    return (path.filter isBelowRoot).bind fun path =>
      (digest.filter isSha256).map fun digest => (path, digest)

def validateProvenance (value : JsValue) (originPath : Text)
    (options : OrganizationPolicyLocationProvider) :
    Validated (Option OrganizationPolicyProvenance) := do
  let record ← exactObject value (js "$.provenance")
    [js "approvedBy", js "approvedSource", js "reviewedAt", js "revision"] options
  match record with
  | none => return none
  | some record => do
    let approvedBy ← requiredString record "approvedBy" (js "$.provenance") options 256
    let reviewedAt ← requiredString record "reviewedAt" (js "$.provenance") options 256
    let stable ← validStableId approvedBy (js "$.provenance.approvedBy") options
    .pushIf (stable = true ∧ reviewedAt.isSome = true ∧ reviewedAt.any isExactDate = false)
      (issue .invalidValue (js "$.provenance.reviewedAt") (js "must be an RFC 3339 full-date")
        options)
    let revisionValue := get record (js "revision")
    let revision : Option (Option Text) := match revisionValue with
      | .null => some none
      | .string text => some (some text)
      | _ => none
    .pushIf (revision.any (fun text => text.all fun text => text != [] && fitsSafeUtf8 text 256) =
        false)
      (issue .invalidValue (js "$.provenance.revision")
        (js "must be null or non-empty bounded safe Unicode") options)
    .pushIf (revisionValue.isUndefined = true)
      (issue .missingField (js "$.provenance.revision") (js "is required") options)
    let source ← validateApprovedSource (get record (js "approvedSource")) originPath options
    return do
      let approvedBy ← approvedBy
      let reviewedAt ← reviewedAt.filter isExactDate
      let revision ← revision
      let (approvedPath, approvedSha256) ← source
      return { approvedBy, approvedPath, approvedSha256, reviewedAt, revision }

/-- The variables of the loop over the policies. -/
structure PolicyState where
  ids : List Text
  targets : List Text
  policies : List OrganizationPolicyEntry
  policyLocations : OrderedMap Text (Option ConfigurationSourceLocation)

def authority? (text : Text) : Option OrganizationPolicyAuthority :=
  if text = js "default" then some .default
  else if text = js "enforced" then some .enforced
  else none

/-- The body of the loop over the policies. -/
def validatePolicy (ruleIds : List Text) (options : OrganizationPolicyLocationProvider)
    (path : Text) (value : JsValue) (state : PolicyState) : Validated PolicyState := do
  let record ← exactObject value path [js "authority", js "id", js "target", js "value"] options
  match record with
  | none => return state
  | some record => do
    let id ← requiredString record "id" path options 256
    let authority ← requiredString record "authority" path options 16
    let stable ← validStableId id (path ++ js ".id") options
    let usable := if stable then id else none
    .pushIf (usable.any state.ids.contains = true) (issue .duplicateId (path ++ js ".id")
      (js "duplicates policy '" ++ usable.getD [] ++ js "'") options)
    .pushIf (authority.isSome = true ∧ (authority.bind authority?).isNone = true)
      (issue .invalidValue (path ++ js ".authority") (js "must be 'default' or 'enforced'") options)
    let target ← validateTarget (get record (js "target")) (path ++ js ".target") ruleIds
      options
    match target with
    | none => return { state with ids := state.ids ++ usable.toList }
    | some target => do
      let value ← validateValue (get record (js "value")) target (path ++ js ".value")
        options
      let key := targetKey target
      .pushIf (key ∈ state.targets) (issue .duplicateTarget (path ++ js ".target")
        (js "duplicates policy target '" ++ key ++ js "'") options)
      let entry := do
        let id ← id
        let authority ← authority.bind authority?
        let value ← value
        return OrganizationPolicyEntry.mk authority id target value
      return {
        ids := state.ids ++ usable.toList
        targets := state.targets ++ [key]
        policies := state.policies ++ entry.toList
        policyLocations := match entry with
          | some entry => state.policyLocations.set entry.id (sourceLocation options path)
          | none => state.policyLocations }

/-- The loop over the policies. -/
def validatePolicies (ruleIds : List Text) (options : OrganizationPolicyLocationProvider) :
    (index : Nat) → List JsValue → PolicyState → Validated PolicyState
  | _, [], state => pure state
  | index, value :: rest, state => do
    let state ← validatePolicy ruleIds options (itemPath (js "$.policies") index) value state
    validatePolicies ruleIds options (index + 1) rest state

/-- What a document says apart from its policies. -/
structure DocumentHeader where
  compatibility : OrganizationPolicyCompatibility
  packId : Text
  packVersion : Text
  provenance : OrganizationPolicyProvenance

/-- The checks of a document up to its policies. -/
def validateHeader (root : Fields) (capability : Option OrganizationPolicyCapabilities)
    (originPath : Text) (options : OrganizationPolicyLocationProvider) :
    Validated (Option DocumentHeader) := do
  let recordKind ← requiredString root "recordKind" (js "$") options 256
  let schemaVersion ← requiredString root "schemaVersion" (js "$") options 256
  let packId ← requiredString root "packId" (js "$") options 256
  let packVersion ← requiredString root "packVersion" (js "$") options 256
  .pushIf (recordKind.isSome = true ∧
      recordKind ≠ some (js "agent-context-organization-policy-pack"))
    (issue .invalidValue (js "$.recordKind") (js "must identify an organization policy pack") options)
  .pushIf (schemaVersion.isSome = true ∧ schemaVersion ≠ some (js "0.1.0"))
    (issue .unsupportedVersion (js "$.schemaVersion") (js "must equal '0.1.0'") options)
  let _ ← validStableId packId (js "$.packId") options
  .pushIf (packVersion.isSome = true ∧ (packVersion.bind parseSemver).isNone = true)
    (issue .invalidValue (js "$.packVersion") (js "must be an exact SemVer") options)
  let compatibility ← validateCompatibility (get root (js "compatibility")) capability options
  let provenance ← validateProvenance (get root (js "provenance")) originPath options
  return do
    let compatibility ← compatibility
    let provenance ← provenance
    let packId ← packId
    let packVersion ← packVersion
    return { compatibility, packId, packVersion, provenance }

/-- The policies of a document. -/
def validatePolicyArray (value : JsValue) (ruleIds : List Text)
    (options : OrganizationPolicyLocationProvider) : Validated PolicyState :=
  match value with
  | .array items =>
    if maximumPolicies < items.length then
      ⟨⟨[], [], [], .empty⟩, [issue .resourceLimit (js "$.policies")
        (js "must contain at most 512 policies") options]⟩
    else validatePolicies ruleIds options 0 items ⟨[], [], [], .empty⟩
  | _ => ⟨⟨[], [], [], .empty⟩, [issue .invalidValue (js "$.policies") (js "must be an array")
      options]⟩

def documentFields : List Text :=
  [js "compatibility", js "packId", js "packVersion", js "policies", js "provenance",
    js "recordKind", js "schemaVersion"]

/-- The document of a pack behind the checks of its boundary. -/
def validateDocument (input : JsValue) (capability : Option OrganizationPolicyCapabilities)
    (ruleIds : List Text) (origin : OrganizationPolicyPackOrigin)
    (options : OrganizationPolicyLocationProvider) :
    Validated (Option ValidatedOrganizationPolicyPack) := do
  let root ← exactObject input (js "$") documentFields options
  match root with
  | none => return none
  | some root => do
    let header ← validateHeader root capability origin.path options
    let state ← validatePolicyArray (get root (js "policies")) ruleIds options
    return header.map fun header => {
      document := {
        compatibility := header.compatibility
        packId := header.packId
        packVersion := header.packVersion
        policies := sortBy (fun left right => compareUnits left.id right.id) state.policies
        provenance := header.provenance }
      origin := origin
      policyLocations := state.policyLocations }

def validateOrganizationPolicyPack (input : JsValue)
    (untrusted : ValidateOrganizationPolicyPackOptions) :
    Except (List OrganizationPolicyIssue) ValidatedOrganizationPolicyPack :=
  let options := untrusted.provider
  let record := closedObject untrusted.origin [js "path", js "sha256"]
  let snapshot := Checked.pushIf (record.isNone = true)
    (issue .invalidValue (js "$origin") (js "must be a closed accessor-free origin") noProvider)
  let boundary := validateJsonBoundary toLowerCase input options
  let capability := validateCapabilities toLowerCase untrusted.capabilities options
  let origin := validateOrigin record options
  let issues := bounded (snapshot.issues ++ boundary ++ capability.issues ++ origin.issues)
  if issues ≠ [] then .error (sortIssues issues)
  else
    let document := validateDocument input
      (if capability.issues = [] then some capability.value else none) capability.value.ruleIds
      origin.value options
    match document.issues, document.value with
    | [], some pack => .ok pack
    | issues, _ => .error (sortIssues (bounded issues))

/-! ## Override layers -/

def maxSafeInteger : Int := 2 ^ 53 - 1

/-- A field that holds a safe whole number from a least one on. -/
def safeField (fields : Fields) (key : String) (least : Int) : Option Nat :=
  match (get fields (js key)).integer? with
  | some n => if least ≤ n ∧ n ≤ maxSafeInteger then some n.toNat else none
  | none => none

def normalizePosition (value : JsValue) : Option SourcePosition := do
  let fields ← closedObject value
    [js "byteOffset", js "line", js "utf16Column", js "utf16Offset"]
  let byteOffset ← safeField fields "byteOffset" 0
  let line ← safeField fields "line" 1
  let utf16Column ← safeField fields "utf16Column" 0
  let utf16Offset ← safeField fields "utf16Offset" 0
  return { byteOffset, utf16Offset, line, utf16Column }

def normalizeLocation (input : JsValue) : Option ConfigurationSourceLocation := do
  let fields ← closedObject input [js "path", js "range"]
  let path ← (get fields (js "path")).text?
  guard (fitsSafeUtf8 path maximumLocationPathBytes &&
    RepositoryPath.isRepositoryRelativePath path)
  let range ← closedObject (get fields (js "range")) [js "end", js "start"]
  let start ← normalizePosition (get range (js "start"))
  let stop ← normalizePosition (get range (js "end"))
  guard (start.byteOffset ≤ stop.byteOffset ∧ start.utf16Offset ≤ stop.utf16Offset)
  return { path, start, stop }

/-- The two layers, under the names that their sources have. -/
inductive OverrideLayer
  | cli
  | repository
  deriving DecidableEq

def OverrideLayer.text : OverrideLayer → Text
  | .cli => js "cli"
  | .repository => js "repository"

def OverrideLayer.isLayerOf (name : OverrideLayer) : OrganizationPolicyOverrideSource → Bool
  | .cli _ => name == .cli
  | .repository _ => name == .repository

/-- The issues of fields that a source does not have. -/
def foreignFields (fields : Fields) (allowed : List Text) (path : Text) (message : String) :
    List OrganizationPolicyIssue :=
  ((keys fields).filter fun key => !allowed.contains key).map fun _ =>
    issue .unknownField path (js message) noProvider

def overrideSource (fields : Fields) (path : Text) :
    Validated (Option OrganizationPolicyOverrideSource) :=
  let kind := (get fields (js "kind")).text?
  let argument := (get fields (js "argument")).text?.filter fun argument =>
    argument != [] && fitsSafeUtf8 argument 256
  if kind = some (js "cli") ∧ argument.isSome = true then
    ⟨argument.map .cli, foreignFields fields [js "argument", js "kind"] path
      "is not part of a CLI source"⟩
  else if kind = some (js "repository") then
    ⟨(normalizeLocation (get fields (js "location"))).map .repository,
      foreignFields fields [js "kind", js "location"] path "is not part of a repository source"⟩
  else pure none

def locationOf : Option OrganizationPolicyOverrideSource → Option ConfigurationSourceLocation
  | some (.repository location) => some location
  | _ => none

/-- The variables of the loop over the overrides. -/
structure LayerState where
  seenIds : List Text
  seenTargets : List Text
  classified : List OrganizationPolicyOverride

/-- The body of the loop over the overrides behind the source. -/
def classifyOverride (ruleIds : List Text) (path : Text) (fields : Fields) (id : Text)
    (source : Option OrganizationPolicyOverrideSource) (state : LayerState)
    (options : OrganizationPolicyLocationProvider) : Validated LayerState :=
  let target := validateTarget (get fields (js "target")) (path ++ js ".target") ruleIds options
  match target.value, target.issues with
  | some target, [] => do
    let value ← validateValue (get fields (js "value")) target (path ++ js ".value") options
    let key := targetKey target
    .pushIf (key ∈ state.seenTargets) (issue .duplicateTarget (path ++ js ".target")
      (js "duplicates an override target") options)
    let entry := do
      let source ← source
      let value ← value
      if isStableId id && fitsSafeUtf8 id 256 then some (OrganizationPolicyOverride.mk id source target value)
      else none
    return { state with
      seenTargets := state.seenTargets ++ [key]
      classified := state.classified ++ entry.toList }
  | _, issues => ⟨state, bounded issues⟩

/-- The body of the loop over the overrides. -/
def validateOverride (name : OverrideLayer) (ruleIds : List Text) (path : Text)
    (value : JsValue) (state : LayerState) : Validated LayerState :=
  match value with
  | .object fields =>
    match (get fields (js "id")).text?, get fields (js "source") with
    | some id, .object sourceFields => do
      let validId := fitsSafeUtf8 id 256 && isStableId id
      .pushIf (validId = false)
        (issue .invalidValue (path ++ js ".id") (js "must be a stable identifier") noProvider)
      let source ← overrideSource sourceFields (path ++ js ".source")
      let options : OrganizationPolicyLocationProvider :=
        { noProvider with locate := fun _ => locationOf source }
      ⟨(), ((keys fields).filter fun key =>
          !List.contains [js "id", js "source", js "target", js "value"] key).map fun _ =>
        issue .unknownField path (js "is not part of an override") options⟩
      .pushIf (source.any name.isLayerOf = false) (issue .invalidValue (path ++ js ".source")
        (js "must be a " ++ name.text ++ js " source") options)
      .pushIf (validId = true ∧ id ∈ state.seenIds) (issue .duplicateId (path ++ js ".id")
        (js "duplicates an override identifier") options)
      let state := if validId then { state with seenIds := state.seenIds ++ [id] } else state
      classifyOverride ruleIds path fields id source state options
    | _, _ => ⟨state, [issue .invalidValue path (js "override id and source are required")
        noProvider]⟩
  | _ => ⟨state, [issue .invalidValue path (js "override entries must be objects") noProvider]⟩

/-- The loop over the overrides. -/
def validateOverrides (name : OverrideLayer) (ruleIds : List Text) :
    (index : Nat) → List JsValue → LayerState → Validated LayerState
  | _, [], state => pure state
  | index, value :: rest, state => do
    let state ← validateOverride name ruleIds (itemPath (js "$" ++ name.text) index) value state
    validateOverrides name ruleIds (index + 1) rest state

def compareOverrides (left right : OrganizationPolicyOverride) : Ordering :=
  (compareUnits (targetKey left.target) (targetKey right.target)).then
    (compareUnits left.id right.id)

def validateOverrideLayer (layer : JsValue) (name : OverrideLayer) (ruleIds : List Text) :
    Validated (List OrganizationPolicyOverride) :=
  let boundary := validateJsonBoundary toLowerCase layer noProvider
  if boundary ≠ [] then ⟨[], sortIssues boundary⟩
  else
    match layer with
    | .array items =>
      if maximumPolicies < items.length then
        ⟨[], [issue .resourceLimit (js "$" ++ name.text)
          (js "must contain at most 512 overrides") noProvider]⟩
      else
        let state := validateOverrides name ruleIds 0 items ⟨[], [], []⟩
        ⟨sortBy compareOverrides state.value.classified, sortIssues (bounded state.issues)⟩
    | _ => ⟨[], [issue .invalidValue (js "$" ++ name.text) (js "must be an array") noProvider]⟩

/-! ## Resolution -/

/-- The options of a resolution; a pack that validation did not return is none. -/
structure ResolveOrganizationPolicyOptions where
  capabilities : JsValue
  cli : JsValue
  pack : Option ValidatedOrganizationPolicyPack
  repository : JsValue

structure OrganizationPolicyResolution where
  assignments : List ResolvedOrganizationPolicyAssignment
  events : List OrganizationPolicyResolutionEvent
  deriving DecidableEq

/-- A target as the object that it is, to be validated again. -/
def targetValue : OrganizationPolicyTarget → JsValue
  | .profile profileId => .object [(js "kind", .string (js "profile")),
      (js "profileId", .string profileId.text)]
  | .rule ruleId => .object [(js "kind", .string (js "rule")), (js "ruleId", .string ruleId)]
  | .setting settingId => .object [(js "kind", .string (js "setting")),
      (js "settingId", .string settingId.text)]
  | .surface profileId surfaceId => .object [(js "kind", .string (js "surface")),
      (js "profileId", .string profileId.text), (js "surfaceId", .string surfaceId.text)]

/-- The issue of a policy whose target is not supported any more. -/
def policyIssues (ruleIds : List Text) (policy : OrganizationPolicyEntry) :
    List OrganizationPolicyIssue :=
  let target := validateTarget (targetValue policy.target) (js "$pack.target") ruleIds noProvider
  match target.value, target.issues with
  | some _, [] => []
  | _, issues =>
    let first := (sortIssues (bounded issues)).head?.getD {
      code := .invalidValue
      location := none
      message := js "organization policy validation failed"
      path := js "$"
      relatedLocation := none }
    [{ first with path := js "$pack.policies." ++ policy.id ++ js ".target" }]

/-- What keeps a pack from being resolved with the capabilities. -/
def capabilityIssues (pack : ValidatedOrganizationPolicyPack)
    (capabilities : OrganizationPolicyCapabilities) : List OrganizationPolicyIssue :=
  let compatibility := pack.document.compatibility
  (Checked.pushIf (compatibility.ruleRegistryVersion ≠ capabilities.ruleRegistryVersion)
    (issue .unsupportedVersion (js "$pack.compatibility.ruleRegistryVersion")
      (js "validated pack does not match the supplied engine rule registry") noProvider)).issues ++
  (Checked.pushIf ((compareSemver capabilities.engineVersion
      compatibility.minimumEngineVersion).getD .lt = .lt)
    (issue .unsupportedVersion (js "$pack.compatibility.minimumEngineVersion")
      (js "validated pack requires a newer engine") noProvider)).issues ++
  pack.document.policies.flatMap (policyIssues capabilities.ruleIds)

def valuesEqual (left right : OrganizationPolicyValue) : Bool := left == right

def sourceOfOverride (override : OrganizationPolicyOverride) : OrganizationPolicyAssignmentSource :=
  match override.source with
  | .cli argument => .cli argument
  | .repository location => .repository location

def locationOfSource : OrganizationPolicyAssignmentSource → Option ConfigurationSourceLocation
  | .cli _ => none
  | .organization _ _ location => location
  | .repository location => some location

def policyIdOf : OrganizationPolicyAssignmentSource → Text
  | .organization _ policyId _ => policyId
  | _ => js "unknown"

/-- The variables of the resolution. -/
structure ResolutionState where
  assignments : OrderedMap Text ResolvedOrganizationPolicyAssignment
  enforced : OrderedMap Text ResolvedOrganizationPolicyAssignment
  events : List OrganizationPolicyResolutionEvent
  issues : List OrganizationPolicyIssue

/-- The body of the loop over the policies of the pack. -/
def applyPolicy (pack : ValidatedOrganizationPolicyPack) (state : ResolutionState)
    (policy : OrganizationPolicyEntry) : ResolutionState :=
  let key := targetKey policy.target
  let source := OrganizationPolicyAssignmentSource.organization policy.authority policy.id
    ((pack.policyLocations.get? policy.id).getD none)
  let assignment : ResolvedOrganizationPolicyAssignment :=
    { source, target := policy.target, targetKey := key, value := policy.value }
  { state with
    assignments := state.assignments.set key assignment
    events := state.events ++ [{ action := .selected, previousSource := none, source, targetKey := key }]
    enforced :=
      if policy.authority = .enforced then state.enforced.set key assignment else state.enforced }

/-- The body of the loop over the overrides of the layers. -/
def applyOverride (state : ResolutionState) (override : OrganizationPolicyOverride) :
    ResolutionState :=
  let key := targetKey override.target
  let source := sourceOfOverride override
  match state.enforced.get? key with
  | some constraint =>
    if valuesEqual constraint.value override.value then
      { state with events := state.events ++ [{
        action := .confirmed
        previousSource := some constraint.source
        source
        targetKey := key }] }
    else
      { state with issues := state.issues ++ [{
        code := .conflict
        location := locationOfSource source
        message := js "value conflicts with enforced organization policy '" ++
          policyIdOf constraint.source ++ js "'"
        path := js "$resolution." ++ key
        relatedLocation := locationOfSource constraint.source }] }
  | none =>
    let previous := state.assignments.get? key
    { state with
      assignments := state.assignments.set key
        { source, target := override.target, targetKey := key, value := override.value }
      events := state.events ++ [{
        action := if previous.isNone then .selected else .overridden
        previousSource := previous.map (·.source)
        source
        targetKey := key }] }

def sourceRank : OrganizationPolicyAssignmentSource → Nat
  | .organization _ _ _ => 0
  | .repository _ => 1
  | .cli _ => 2

def compareEvents (left right : OrganizationPolicyResolutionEvent) : Ordering :=
  (compareUnits left.targetKey right.targetKey).then
    ((compare (sourceRank left.source) (sourceRank right.source)).then
      (compareUnits left.action.text right.action.text))

/-- The resolution of a pack with the overrides of two layers. -/
def resolveLayers (pack : ValidatedOrganizationPolicyPack)
    (repository cli : List OrganizationPolicyOverride) :
    Except (List OrganizationPolicyIssue) OrganizationPolicyResolution :=
  let start : ResolutionState := ⟨.empty, .empty, [], []⟩
  let state := (repository ++ cli).foldl applyOverride
    (pack.document.policies.foldl (applyPolicy pack) start)
  if state.issues ≠ [] then .error (sortIssues (bounded state.issues))
  else
    .ok {
      assignments := sortBy (fun left right => compareUnits left.targetKey right.targetKey)
        state.assignments.values
      events := sortBy compareEvents state.events }

/-- An absent layer is an empty one. -/
def presentOverrideLayer : JsValue → JsValue
  | .undefined => .array []
  | layer => layer

def resolveOrganizationPolicy (untrusted : ResolveOrganizationPolicyOptions) :
    Except (List OrganizationPolicyIssue) OrganizationPolicyResolution :=
  match untrusted.pack with
  | none => .error [issue .invalidValue (js "$pack")
      (js "must be the exact immutable value returned by successful pack validation") noProvider]
  | some pack =>
    let capability := validateCapabilities toLowerCase untrusted.capabilities noProvider
    if capability.issues ≠ [] then .error (sortIssues (bounded capability.issues))
    else
      let unsupported := capabilityIssues pack capability.value
      if unsupported ≠ [] then .error (sortIssues (bounded unsupported))
      else
        let ruleIds := capability.value.ruleIds
        let repository := validateOverrideLayer toLowerCase
          (presentOverrideLayer untrusted.repository) .repository ruleIds
        let cli := validateOverrideLayer toLowerCase (presentOverrideLayer untrusted.cli) .cli ruleIds
        let issues := repository.issues ++ cli.issues
        if issues ≠ [] then .error (sortIssues (bounded issues))
        else resolveLayers pack repository.value cli.value

end Boundary

end OrganizationPolicy

end AgentContextLint
