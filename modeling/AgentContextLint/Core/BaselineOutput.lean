import AgentContextLint.Core.DiagnosticValidation
import AgentContextLint.Core.OutputSanitization
import AgentContextLint.Lib.JsonTexts
import AgentContextLint.Lib.OrderedMap

/-!
# Baseline outputs

The baseline records of `packages/core/src/output-contracts.ts`, their acceptance by
`packages/core/src/output-validation.ts`, and `sanitizeOutputJson` on them. Fields with one
permitted value (the record kind, versions of contracts, fingerprint methods) are left out, and
the limits on the JSON text as a whole are a parameter.

A record of profiles is a map in the order of `Object.keys`.
-/

namespace AgentContextLint

open Utf16 Utf8 Sorting DiagnosticFingerprint DiagnosticValidation
open OutputSanitization (sanitizeOutputText)
open RepositoryPath (isRepositoryRelativePath)

/-! ## Contracts -/

structure BaselineProfileVersionIdentity where
  profileVersion : Text
  clientVersion : Option Text
  surfaceIds : List Text
  specSnapshotIds : List Text
  deriving DecidableEq

abbrev ProfileVersions := OrderedMap Text BaselineProfileVersionIdentity

structure BaselineEntry where
  ruleId : Text
  ruleVersion : Text
  severity : DiagnosticSeverity
  path : RelativePath
  semanticFingerprint : Text
  pathFingerprint : Text
  provenanceFingerprint : Text
  profileIds : List Text
  surfaceIds : List Text
  specSnapshotIds : List Text
  firstSeenAt : Text
  expiresAt : Option Text

structure BaselineOutput where
  engineVersion : Text
  createdAt : Text
  expiresAt : Option Text
  sourceRevision : Text
  profileVersions : ProfileVersions
  entries : List BaselineEntry

def DiagnosticSeverity.text : DiagnosticSeverity → Text
  | .error => js "error"
  | .info => js "info"
  | .warning => js "warning"

namespace BaselineOutput

/-! ## Texts -/

section Patterns

open UnitPattern Pattern

/-- `VERSION` -/
def version : Pattern CodeUnit :=
  let number : Pattern CodeUnit :=
    .either (literal "0") (.seq (.unit (inRange 0x31 0x39)) (.star (.unit isDigit)))
  .seq number (.seq (literal ".") (.seq number (.seq (literal ".") number)))

/-- `DATE_TIME` -/
def dateTime : Pattern CodeUnit :=
  let digits (n : Nat) : Pattern CodeUnit := times (.unit isDigit) n
  .seq (digits 4) (.seq (literal "-") (.seq (digits 2) (.seq (literal "-") (.seq (digits 2)
    (.seq (literal "T") (.seq (digits 2) (.seq (literal ":") (.seq (digits 2) (.seq (literal ":")
      (.seq (digits 2) (.seq (literal ".") (.seq (digits 3) (literal "Z")))))))))))))

end Patterns

/-- The number written by digits. -/
def decimalValue (text : Text) : Nat :=
  text.foldl (fun value unit => value * 10 + (unit.toNat - 0x30)) 0

def daysInMonth (year month : Nat) : Nat :=
  if month = 2 then
    if year % 4 = 0 ∧ (year % 100 ≠ 0 ∨ year % 400 = 0) then 29 else 28
  else if month ∈ [4, 6, 9, 11] then 30
  else 31

/-- An instant that `Date` reads and writes back as it is. -/
def isCanonicalDateTime (value : Text) : Bool :=
  let field (start length : Nat) : Nat := decimalValue ((value.drop start).take length)
  dateTime.matchesAll value && 1 ≤ field 5 2 && field 5 2 ≤ 12 && 1 ≤ field 8 2 &&
    field 8 2 ≤ daysInMonth (field 0 4) (field 5 2) && field 11 2 ≤ 23 && field 14 2 ≤ 59 &&
    field 17 2 ≤ 59

/-- `left < right` on strings: by code units. -/
def isBefore (left right : Text) : Bool := decide (left < right)

/-- The bounds of `string`. -/
def isBoundedString (value : Text) : Bool :=
  value ≠ [] && (codePoints value).length ≤ 4096 && byteLength value ≤ 16384

/-- `canonicalStrings`: identifiers, each before the next. -/
def areCanonicalStrings (values : List Text) : Bool :=
  (values.all fun value => isBoundedString value && isStableIdentifier value) &&
    (values.zip values.tail).all fun pair => isBefore pair.1 pair.2

/-- `MAX_OUTPUT_CONTAINER_ENTRIES` -/
def maxOutputContainerEntries : Nat := 100000

/-- `MAX_BASELINE_ENTRIES` -/
def maxBaselineEntries : Nat := 100000

/-! ## Validation -/

def validateProfile (profile : BaselineProfileVersionIdentity) : Bool :=
  isBoundedString profile.profileVersion && version.matchesAll profile.profileVersion &&
    profile.clientVersion.all isBoundedString &&
    profile.surfaceIds.length ≤ maxOutputContainerEntries && areCanonicalStrings profile.surfaceIds &&
    profile.specSnapshotIds.length ≤ maxOutputContainerEntries &&
    areCanonicalStrings profile.specSnapshotIds

def joinUnits (separator : CodeUnit) (pieces : List Text) : Text :=
  [separator].intercalate pieces

/-- The complete compatibility identity by which entries are ordered. -/
def compatibilityIdentity (entry : BaselineEntry) : Text :=
  joinUnits 0 [entry.ruleId, entry.ruleVersion, entry.severity.text, entry.path,
    entry.semanticFingerprint, entry.pathFingerprint, entry.provenanceFingerprint,
    joinUnits 1 entry.profileIds, joinUnits 1 entry.surfaceIds, joinUnits 1 entry.specSnapshotIds]

def areReferences (declared ids : List Text) : Bool :=
  ids.length ≤ maxOutputContainerEntries && areCanonicalStrings ids && ids.all (declared.contains ·)

def validateEntry (baseline : BaselineOutput) (entry : BaselineEntry) : Bool :=
  isBoundedString entry.ruleId && isStableIdentifier entry.ruleId &&
    isBoundedString entry.ruleVersion && version.matchesAll entry.ruleVersion &&
    isBoundedString entry.path && isRepositoryRelativePath entry.path &&
    isFingerprint entry.semanticFingerprint && isFingerprint entry.pathFingerprint &&
    isFingerprint entry.provenanceFingerprint &&
    areReferences baseline.profileVersions.keys entry.profileIds &&
    areReferences (baseline.profileVersions.values.flatMap (·.surfaceIds)) entry.surfaceIds &&
    areReferences (baseline.profileVersions.values.flatMap (·.specSnapshotIds))
      entry.specSnapshotIds &&
    isCanonicalDateTime entry.firstSeenAt && !isBefore baseline.createdAt entry.firstSeenAt &&
    entry.expiresAt.all fun expiry =>
      isCanonicalDateTime expiry && isBefore entry.firstSeenAt expiry &&
        baseline.expiresAt.all fun whole => !isBefore whole expiry

/-- `validateBaselineOutput` reports no issue; `json` is `validateJsonValue` within its limits. -/
def validateBaselineOutput (json : BaselineOutput → Bool) (baseline : BaselineOutput) : Bool :=
  json baseline && isBoundedString baseline.engineVersion &&
    version.matchesAll baseline.engineVersion && isCanonicalDateTime baseline.createdAt &&
    (baseline.expiresAt.all fun expiry =>
      isCanonicalDateTime expiry && isBefore baseline.createdAt expiry) &&
    isFingerprint baseline.sourceRevision && baseline.profileVersions.keys ≠ [] &&
    areCanonicalStrings baseline.profileVersions.keys &&
    baseline.profileVersions.values.all validateProfile &&
    baseline.entries.length ≤ maxBaselineEntries &&
    baseline.entries.all (validateEntry baseline) &&
    (let identities := baseline.entries.map compatibilityIdentity
    (identities.zip identities.tail).all fun pair => isBefore pair.1 pair.2)

/-! ## Objects as records -/

def isIndexKey (key : Text) : Bool :=
  key ≠ [] && key.all UnitPattern.isDigit && (key = js "0" || key.head? ≠ some 0x30) &&
    decimalValue key < 4294967295

/-- The order of `Object.keys`: indices first, by their value. -/
def enumerated {β : Type} (record : OrderedMap Text β) : OrderedMap Text β :=
  let indices := record.entries.filter fun entry => isIndexKey entry.1
  let others := record.entries.filter fun entry => !isIndexKey entry.1
  let byValue := sortBy (fun left right => compare (decimalValue left.1) (decimalValue right.1)) indices
  (byValue ++ others).foldl (fun result entry => result.set entry.1 entry.2) .empty

/-! ## Sanitised outputs -/

/-- The text of a counter is appended to a key until it is new. -/
def freshKeyFrom (taken : List Text) (baseKey : Text) : (fuel : Nat) → Nat → Text → Text
  | 0, _, sanitizedKey => sanitizedKey
  | fuel + 1, collision, sanitizedKey =>
    if sanitizedKey ∈ taken then
      freshKeyFrom taken baseKey fuel (collision + 1)
        (baseKey ++ 0x2d :: Netstring.decimalText collision)
    else sanitizedKey

/-- One more candidate than there are keys is enough. -/
def freshKey (taken : List Text) (baseKey : Text) : Text :=
  freshKeyFrom taken baseKey taken.length 2 baseKey

/-- `sanitizeOutputJson` on an object whose values are sanitised by `sanitize`. -/
def sanitizeRecord {β : Type} (sanitize : β → β) (record : OrderedMap Text β) : OrderedMap Text β :=
  enumerated (record.entries.foldl (fun output entry =>
    output.set (freshKey output.keys (sanitizeOutputText entry.1)) (sanitize entry.2)) .empty)

def sanitizeProfile (profile : BaselineProfileVersionIdentity) : BaselineProfileVersionIdentity where
  profileVersion := sanitizeOutputText profile.profileVersion
  clientVersion := profile.clientVersion.map sanitizeOutputText
  surfaceIds := profile.surfaceIds.map sanitizeOutputText
  specSnapshotIds := profile.specSnapshotIds.map sanitizeOutputText

end BaselineOutput

end AgentContextLint
