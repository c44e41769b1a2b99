import AgentContextLint.Efficiency.ContextEfficiencyScore

/-!
# The distribution of target tokens

Model of `packages/efficiency/src/profile-target-distribution.ts`, and of
`packages/efficiency/src/tokenizer-contract.ts` where it checks and compares tokenizer identities.
The records have the types that the source declares, so the checks of unknown data for records and
arrays, and of fields that have a single value, are left out. What fails inside an accounting is
named relative to the accounting, and `Fault.under` puts the label in front.
-/

namespace AgentContextLint.TargetDistribution

open Utf16 Utf8 Metered

/-- `PROFILE_TARGET_DISTRIBUTION_MAX_TARGETS` -/
def maxTargets : Nat := 100000

/-- `OCCURRENCE_TOKEN_ACCOUNTING_LIMITS.maxDocuments` -/
def maxDocuments : Nat := 4096

/-- `OCCURRENCE_TOKEN_ACCOUNTING_LIMITS.maxOccurrences` -/
def maxOccurrences : Nat := 65537

/-- `Number.MAX_SAFE_INTEGER` -/
def maxSafeInteger : Nat := 9007199254740991

/-! ## Records -/

structure TokenizerIdentity where
  id : Text
  measurement : TokenizerMeasurement
  version : Text

structure TokenAccountingTotals where
  raw : Nat
  imported : Nat
  unique : Nat
  always : Nat
  effective : Nat

structure AccountedDocument where
  contentId : Text
  documentId : Text
  path : Text
  rawTokens : Nat
  sourceBytes : Nat

structure AccountedContent where
  contentId : Text
  documentIds : List Text
  tokens : Nat

inductive OccurrenceState
  | alreadyLoaded
  | ambiguous
  | cycle
  | entry
  | limitExceeded
  | loaded
  | rejected
  | unavailable
  deriving DecidableEq

inductive OccurrenceDisposition
  | included
  | excluded
  | unknown
  deriving DecidableEq

inductive OccurrenceActivation
  | always
  | conditional
  deriving DecidableEq

structure AccountedOccurrence where
  activation : Option OccurrenceActivation
  availableTokens : Option Nat
  consumedTokens : Option Nat
  disposition : OccurrenceDisposition
  occurrenceId : Text
  ordinal : Nat
  sourceBytesAvailable : Option Nat
  sourceBytesConsumed : Option Nat
  state : OccurrenceState
  targetDocumentId : Option Text
  targetPath : Option Text
  truncated : Option Bool

inductive AccountingIssueCode
  | graphPartial
  | parseFailedDocument
  | unknownOccurrence

structure AccountingIssue where
  code : AccountingIssueCode
  occurrenceId : Option Text
  path : Text

structure OccurrenceTokenAccounting where
  contents : List AccountedContent
  documents : List AccountedDocument
  identity : TokenizerIdentity
  issues : List AccountingIssue
  occurrences : List AccountedOccurrence
  state : EvidenceState
  totals : TokenAccountingTotals
  traceSha256 : Text

structure ProfileTargetAccounting where
  accounting : OccurrenceTokenAccounting
  path : Text

/-- What is read of a sampling. -/
structure TargetSamplingResult where
  selected : List Text
  state : EvidenceState
  strategy : SamplingStrategy

structure AggregateProfileTargetDistributionInput where
  accountings : List ProfileTargetAccounting
  identity : TokenizerIdentity
  profile : ProfileTargetIdentity
  sampling : TargetSamplingResult

structure ProfileTargetTokenObservation where
  alwaysOnTokens : Nat
  effectiveTokens : Nat
  includedInStatistics : Bool
  path : Text
  state : EvidenceState
  traceSha256 : Text

structure ProfileTargetTokenStatistics where
  maximum : Nat
  minimum : Nat
  p50 : Nat
  p95 : Nat
  deriving DecidableEq

inductive ProfileTargetDistributionIssueCode
  | accountingPartial
  | noCompleteTargets
  | samplingPartial

structure ProfileTargetDistributionIssue where
  code : ProfileTargetDistributionIssueCode
  path : Option Text

structure ProfileTargetDistribution where
  completeSampleCount : Nat
  issues : List ProfileTargetDistributionIssue
  profile : ProfileTargetIdentity
  sampleCount : Nat
  samplingState : EvidenceState
  samplingStrategy : SamplingStrategy
  state : DistributionState
  statistics : Option ProfileTargetTokenStatistics
  targets : List ProfileTargetTokenObservation
  tokenizer : TokenizerIdentity

/-! ## Errors -/

inductive ProfileTargetDistributionErrorCode
  | incompatibleTokenizer
  | invalidInput
  | invalidRelationship
  | resourceLimit

structure ProfileTargetDistributionError where
  code : ProfileTargetDistributionErrorCode
  message : String

/-- An error behind a label that is still to come. -/
structure Fault where
  code : ProfileTargetDistributionErrorCode
  labelled : Bool
  message : String

def Fault.under (label : String) (fault : Fault) : ProfileTargetDistributionError :=
  ⟨fault.code, if fault.labelled then label ++ fault.message else fault.message⟩

/-- `if (condition) fail(code, label + message)` -/
def failIf (condition : Prop) [Decidable condition] (code : ProfileTargetDistributionErrorCode)
    (message : String) : Except Fault Unit := refuseIf condition ⟨code, true, message⟩

def denseArray {α : Type} (value : List α) (maximum : Nat) (label : String) : Except Fault Unit :=
  failIf (value.length > maximum) .resourceLimit (label ++ " exceeds its item limit")

/-! ## Texts and numbers -/

/-- Alphanumeric pieces with one separator between two of them. -/
def isSeparated (separators value : Text) : Bool :=
  (value.splitOnP (· ∈ separators)).all fun piece =>
    piece ≠ [] && piece.all isAsciiAlphanumeric

/-- `IDENTIFIER` -/
def isIdentifier (value : Text) : Bool := isSeparated (js "._:/-") value

/-- `VERSION` -/
def isVersion (value : Text) : Bool := isSeparated (js "._+:/-") value

/-- `SHA256` -/
def isSha256 (value : Text) : Bool := value.length == 64 && value.all Sha256.isHexDigit

/-- `CONTENT_ID` -/
def isContentId (value : Text) : Bool :=
  (js "content:").isPrefixOf value && isSha256 (value.drop (js "content:").length)

variable (value : Text)

def boundedText (label : String) (pattern : Text → Bool) : Except Fault Unit :=
  failIf (value.length = 0 ∨ value.length > 512 ∨ pattern value = false) .invalidInput
    (label ++ " is invalid")

/-- A scalar that a version of a client may not have. -/
def isUnsafeUnit (unit : CodeUnit) : Bool :=
  decide (unit.toNat ≤ 0x1f) || unit == 0x7f || unit == 0x2028 || unit == 0x2029

def boundedClientVersion (label : String) : Except Fault Unit := do
  failIf (value.length = 0 ∨ value.length > 512) .invalidInput (label ++ " is invalid")
  failIf (value.any isUnsafeUnit) .invalidInput (label ++ " is invalid")

def pathValue (label : String) : Except Fault Unit :=
  failIf (value = RepositoryPath.repositoryRoot ∨
      RepositoryPath.isRepositoryRelativePath value = false) .invalidInput
    (label ++ " must be a canonical repository file path")

def accountingIssuePath (label : String) : Except Fault Unit :=
  if value = js "$dag" ∨ value = js "$unresolved" then .ok () else pathValue value label

def safeInteger (value : Nat) (label : String) : Except Fault Unit :=
  failIf (value > maxSafeInteger) .invalidInput (label ++ " must be a non-negative safe integer")

/-- `nullableInteger` and `nullableText` check what is there. -/
def nullable {α : Type} (check : α → Except Fault Unit) : Option α → Except Fault Unit
  | none => .ok ()
  | some value => check value

def safeAdd (left right : Nat) (label : String) : Except Fault Nat := do
  refuseIf (left + right > maxSafeInteger)
    (⟨.resourceLimit, false, label ++ " exceeds safe integer range"⟩ : Fault)
  return left + right

/-! ## Tokenizers -/

/-- `boundedToken`, under the limit of 128 bytes for ids and for versions -/
def boundedToken (pattern : Text → Bool) : Bool :=
  decide (0 < value.length) && decide (value.length ≤ 128) && decide (byteLength value ≤ 128) &&
    pattern value

/-- `validateTokenizerIdentity` -/
def isTokenizerIdentity (value : TokenizerIdentity) : Bool :=
  boundedToken value.id isIdentifier && boundedToken value.version isVersion

/-- `compareTokenizerIdentities(left, right).compatible` -/
def areCompatible (left right : TokenizerIdentity) : Bool :=
  isTokenizerIdentity left && isTokenizerIdentity right &&
    decide (left.measurement = right.measurement) && decide (left.id = right.id) &&
    decide (left.version = right.version)

/-! ## The profile and the sampling -/

def normalizeProfile (profile : ProfileTargetIdentity) : Except Fault ProfileTargetIdentity := do
  nullable (boundedClientVersion · "profile.clientVersion") profile.clientVersion
  boundedText profile.profileId "profile.profileId" isIdentifier
  boundedText profile.profileVersion "profile.profileVersion" isVersion
  boundedText profile.specSnapshotId "profile.specSnapshotId" isIdentifier
  boundedText profile.surfaceId "profile.surfaceId" isIdentifier
  return profile

def normalizeSampling (sampling : TargetSamplingResult) : Except Fault TargetSamplingResult := do
  denseArray sampling.selected maxTargets "sampling.selected"
  for (path, index) in sampling.selected.zipIdx do
    pathValue path ("sampling.selected[" ++ toString index ++ "].path")
  failIf ((sampling.selected.zip sampling.selected.tail).any fun pair =>
      compareUnits pair.1 pair.2 ≠ .lt) .invalidRelationship
    "sampling.selected paths must be unique and canonically ordered"
  return sampling

/-! ## The evidence of an accounting -/

def normalizeTotals (totals : TokenAccountingTotals) : Except Fault TokenAccountingTotals := do
  safeInteger totals.raw ".totals.raw"
  safeInteger totals.imported ".totals.imported"
  safeInteger totals.unique ".totals.unique"
  safeInteger totals.always ".totals.always"
  safeInteger totals.effective ".totals.effective"
  failIf (totals.imported > totals.effective ∨ totals.always > totals.effective)
    .invalidRelationship ".totals contains impossible token totals"
  return totals

structure AccountingDocument where
  contentId : Text
  path : Text
  rawTokens : Nat
  sourceBytes : Nat

structure AccountingEvidence where
  contentTokens : OrderedMap Text Nat
  documents : OrderedMap Text AccountingDocument
  raw : Nat

def itemLabel (array : String) (index : Nat) : String := array ++ "[" ++ toString index ++ "]"

/-- The first loop of `normalizeDocumentEvidence`, over the documents. -/
def documentStep (known : OrderedMap Text AccountingDocument × Nat)
    (item : AccountedDocument × Nat) : Except Fault (OrderedMap Text AccountingDocument × Nat) := do
  let label := itemLabel ".documents" item.2
  boundedText item.1.documentId (label ++ ".documentId") isIdentifier
  boundedText item.1.contentId (label ++ ".contentId") isContentId
  pathValue item.1.path (label ++ ".path")
  safeInteger item.1.rawTokens (label ++ ".rawTokens")
  safeInteger item.1.sourceBytes (label ++ ".sourceBytes")
  failIf (item.1.documentId ∈ known.1.keys) .invalidRelationship " duplicates a document"
  let document : AccountingDocument :=
    ⟨item.1.contentId, item.1.path, item.1.rawTokens, item.1.sourceBytes⟩
  let raw ← safeAdd known.2 item.1.rawTokens "raw token total"
  return (known.1.set item.1.documentId document, raw)

variable (documents : OrderedMap Text AccountingDocument)

/-- The loop over the documents of a content. -/
def memberStep (item : AccountedContent) (label : String) (members : List Text) (entry : Text × Nat) :
    Except Fault (List Text) := do
  boundedText entry.1 (itemLabel (label ++ ".documentIds") entry.2) isIdentifier
  let document := documents.get? entry.1
  failIf (document.map (·.contentId) ≠ some item.contentId ∨
      document.map (·.rawTokens) ≠ some item.tokens ∨ entry.1 ∈ members) .invalidRelationship
    (label ++ " disagrees with document evidence")
  return members ++ [entry.1]

/-- The second loop of `normalizeDocumentEvidence`, over the contents. -/
def contentStep (known : OrderedMap Text Nat × List Text) (item : AccountedContent × Nat) :
    Except Fault (OrderedMap Text Nat × List Text) := do
  let label := itemLabel ".contents" item.2
  boundedText item.1.contentId (label ++ ".contentId") isContentId
  failIf (item.1.contentId ∈ known.1.keys) .invalidRelationship " duplicates content"
  safeInteger item.1.tokens (label ++ ".tokens")
  denseArray item.1.documentIds maxDocuments (label ++ ".documentIds")
  failIf (item.1.documentIds.length = 0) .invalidRelationship (label ++ " must name documents")
  let members ← item.1.documentIds.zipIdx.foldlM (memberStep documents item.1 label) known.2
  return (known.1.set item.1.contentId item.1.tokens, members)

def normalizeDocumentEvidence (accounting : OccurrenceTokenAccounting) :
    Except Fault AccountingEvidence := do
  denseArray accounting.documents maxDocuments ".documents"
  let (documents, raw) ← accounting.documents.zipIdx.foldlM documentStep (.empty, 0)
  denseArray accounting.contents maxDocuments ".contents"
  let (contentTokens, members) ←
    accounting.contents.zipIdx.foldlM (contentStep documents) (.empty, [])
  failIf (members.length ≠ documents.keys.length) .invalidRelationship
    " omits document content membership"
  return { contentTokens, documents, raw }

/-- What the loop over the occurrences has added up. -/
structure OccurrenceSums where
  occurrenceIds : List Text
  reachedContents : List Text
  imported : Nat
  always : Nat
  effective : Nat

/-- Whether what an occurrence says of its target agrees with the document. -/
def targetRelationshipValid (item : AccountedOccurrence) (document : Option AccountingDocument) :
    Bool :=
  if item.targetDocumentId = none then
    item.targetPath = none && item.availableTokens = none && item.sourceBytesAvailable = none
  else
    item.targetPath = document.map (·.path) && document.isSome &&
      item.availableTokens = document.map (·.rawTokens) &&
      item.sourceBytesAvailable = document.map (·.sourceBytes)

/-- An included occurrence, with its evidence checked and added up. -/
def includedStep (sums : OccurrenceSums) (item : AccountedOccurrence)
    (document : Option AccountingDocument) (label : String) : Except Fault OccurrenceSums := do
  let invalid : Fault := ⟨.invalidRelationship, true, label ++ " has invalid included evidence"⟩
  let evidence : Option (Nat × Nat × AccountingDocument × Nat × Nat) := do
    let consumed ← item.consumedTokens
    let bytes ← item.sourceBytesConsumed
    let target ← document
    let available ← item.availableTokens
    let bytesAvailable ← item.sourceBytesAvailable
    return (consumed, bytes, target, available, bytesAvailable)
  let (consumed, bytes, target, available, bytesAvailable) ← evidence.elim (.error invalid) .ok
  refuseIf (item.activation = none ∨ consumed > available ∨ bytes > bytesAvailable ∨
    item.truncated ≠ some (decide (bytes < bytesAvailable))) invalid
  let effective ← safeAdd sums.effective consumed "effective token total"
  let imported ← if item.state = .entry then pure sums.imported
    else safeAdd sums.imported consumed "imported token total"
  let always ← if item.activation = some .always then
      safeAdd sums.always consumed "always token total"
    else pure sums.always
  return { sums with
    effective, imported, always,
    reachedContents := sums.reachedContents.insert target.contentId }

/-- The loop over the occurrences of `normalizeOccurrenceEvidence`. -/
def occurrenceStep (evidence : AccountingEvidence) (sums : OccurrenceSums)
    (entry : AccountedOccurrence × Nat) : Except Fault OccurrenceSums := do
  let (item, index) := entry
  let label := itemLabel ".occurrences" index
  boundedText item.occurrenceId (label ++ ".occurrenceId") isIdentifier
  failIf (item.occurrenceId ∈ sums.occurrenceIds ∨ item.ordinal ≠ index) .invalidRelationship
    (label ++ " has invalid identity or order")
  nullable (safeInteger · (label ++ ".availableTokens")) item.availableTokens
  nullable (safeInteger · (label ++ ".consumedTokens")) item.consumedTokens
  nullable (safeInteger · (label ++ ".sourceBytesAvailable")) item.sourceBytesAvailable
  nullable (safeInteger · (label ++ ".sourceBytesConsumed")) item.sourceBytesConsumed
  nullable (boundedText · (label ++ ".targetDocumentId") isIdentifier) item.targetDocumentId
  nullable (pathValue · (label ++ ".targetPath")) item.targetPath
  let document := item.targetDocumentId.bind evidence.documents.get?
  failIf (targetRelationshipValid item document = false) .invalidRelationship
    (label ++ " disagrees with its target document")
  let known := { sums with occurrenceIds := sums.occurrenceIds ++ [item.occurrenceId] }
  if item.disposition = .included then includedStep known item document label
  else do
    failIf (item.activation ≠ none ∨ item.consumedTokens ≠ none ∨ item.sourceBytesConsumed ≠ none ∨
        item.truncated ≠ none) .invalidRelationship
      (label ++ " has invalid excluded or unknown evidence")
    return known

def uniqueStep (evidence : AccountingEvidence) (unique : Nat) (contentId : Text) :
    Except Fault Nat := do
  let tokens ← (evidence.contentTokens.get? contentId).elim
    (.error ⟨.invalidRelationship, true, " reaches unknown content"⟩) .ok
  safeAdd unique tokens "unique token total"

variable (accounting : OccurrenceTokenAccounting)

/-- The sums that `normalizeOccurrenceEvidence` returns, and the unique tokens with them. -/
def normalizeOccurrenceEvidence (evidence : AccountingEvidence) :
    Except Fault (OccurrenceSums × Nat) := do
  denseArray accounting.occurrences maxOccurrences ".occurrences"
  let sums ← accounting.occurrences.zipIdx.foldlM (occurrenceStep evidence) ⟨[], [], 0, 0, 0⟩
  let unique ← sums.reachedContents.foldlM (uniqueStep evidence) 0
  return (sums, unique)

def checkIssue (entry : AccountingIssue × Nat) : Except Fault Unit := do
  let label := itemLabel ".issues" entry.2
  nullable (boundedText · (label ++ ".occurrenceId") isIdentifier) entry.1.occurrenceId
  accountingIssuePath entry.1.path (label ++ ".path")

def revalidateAccountingEvidence (totals : TokenAccountingTotals) : Except Fault Unit := do
  let documentEvidence ← normalizeDocumentEvidence accounting
  let (sums, unique) ← normalizeOccurrenceEvidence accounting documentEvidence
  denseArray accounting.issues maxOccurrences ".issues"
  accounting.issues.zipIdx.forM checkIssue
  failIf ((accounting.state = .complete) ≠ (accounting.issues.length = 0)) .invalidRelationship
    ".state disagrees with its issues"
  failIf (documentEvidence.raw ≠ totals.raw ∨ sums.imported ≠ totals.imported ∨
      unique ≠ totals.unique ∨ sums.always ≠ totals.always ∨ sums.effective ≠ totals.effective)
    .invalidRelationship ".totals do not reconcile with contribution evidence"

/-- What an observation has of an accounting. -/
structure NormalizedAccounting where
  alwaysOnTokens : Nat
  effectiveTokens : Nat
  state : EvidenceState
  traceSha256 : Text

def normalizeAccounting (identity : TokenizerIdentity) : Except Fault NormalizedAccounting := do
  failIf (isTokenizerIdentity accounting.identity = false) .invalidInput ".identity is invalid"
  failIf (areCompatible identity accounting.identity = false) .incompatibleTokenizer
    ".identity is incompatible with the selected tokenizer"
  failIf (isSha256 accounting.traceSha256 = false) .invalidInput ".traceSha256 is invalid"
  let totals ← normalizeTotals accounting.totals
  revalidateAccountingEvidence accounting totals
  return ⟨totals.always, totals.effective, accounting.state, accounting.traceSha256⟩

/-! ## The distribution -/

/-- A value of a list that is not empty. -/
def requiredEntry (values : List Nat) (index : Nat) (message : String) :
    Except ProfileTargetDistributionError Nat :=
  values[index]?.elim (.error ⟨.invalidRelationship, message⟩) .ok

/-- The observed empirical quantile by the nearest rank, `⌈length * numerator / 100⌉`. -/
def nearestRank (sorted : List Nat) (numerator : Nat) : Except ProfileTargetDistributionError Nat :=
  requiredEntry sorted ((sorted.length * numerator + 99) / 100 - 1) "percentile input is empty"

def requiredNumber (values : List Nat) (index : Nat) : Except ProfileTargetDistributionError Nat :=
  requiredEntry values index "distribution input is empty"

def statisticsOf (completeValues : List Nat) :
    Except ProfileTargetDistributionError (Option ProfileTargetTokenStatistics) :=
  if completeValues.length = 0 then return none
  else do
    let maximum ← requiredNumber completeValues (completeValues.length - 1)
    let minimum ← requiredNumber completeValues 0
    let p50 ← nearestRank completeValues 50
    let p95 ← nearestRank completeValues 95
    return some { maximum, minimum, p50, p95 }

def observe (identity : TokenizerIdentity) (entry : ProfileTargetAccounting × Nat) :
    Except ProfileTargetDistributionError ProfileTargetTokenObservation := do
  let label := itemLabel "accountings" entry.2
  (pathValue entry.1.path ".path").mapError (Fault.under label)
  let accounting ← (normalizeAccounting entry.1.accounting identity).mapError
    (Fault.under (label ++ ".accounting"))
  return {
    alwaysOnTokens := accounting.alwaysOnTokens
    effectiveTokens := accounting.effectiveTokens
    includedInStatistics := decide (accounting.state = .complete)
    path := entry.1.path
    state := accounting.state
    traceSha256 := accounting.traceSha256 }

def completeValues (observations : List ProfileTargetTokenObservation) : List Nat :=
  Sorting.sortBy compare
    ((observations.filter (·.includedInStatistics)).map (·.effectiveTokens))

def issuesOf (samplingState : EvidenceState) (observations : List ProfileTargetTokenObservation)
    (completeValues : List Nat) : List ProfileTargetDistributionIssue :=
  (if samplingState = .partly then [⟨.samplingPartial, none⟩] else []) ++
  (observations.filter (·.state = .partly)).map (fun observation =>
    ⟨.accountingPartial, some observation.path⟩) ++
  (if observations.length > 0 ∧ completeValues.length = 0 then [⟨.noCompleteTargets, none⟩] else [])

/-- `if (condition) fail(code, message)` -/
def failWhen (condition : Prop) [Decidable condition] (code : ProfileTargetDistributionErrorCode)
    (message : String) : Except ProfileTargetDistributionError Unit := refuseIf condition ⟨code, message⟩

def distributionOf (identity : TokenizerIdentity) (profile : ProfileTargetIdentity)
    (sampling : TargetSamplingResult) (observations : List ProfileTargetTokenObservation) :
    Except ProfileTargetDistributionError ProfileTargetDistribution := do
  failWhen (¬ ∀ index < sampling.selected.length,
      (observations.map (·.path))[index]? = sampling.selected[index]?) .invalidRelationship
    "accounting paths must exactly match the E08 selected target set"
  let values := completeValues observations
  let statistics ← statisticsOf values
  let issues := issuesOf sampling.state observations values
  let state := if observations.length = 0 then DistributionState.empty
    else if issues.length = 0 then .complete else .partly
  return {
    completeSampleCount := values.length
    issues := issues
    profile := profile
    sampleCount := observations.length
    samplingState := sampling.state
    samplingStrategy := sampling.strategy
    state := state
    statistics := statistics
    targets := observations
    tokenizer := identity }

def aggregateProfileTargetDistribution (input : AggregateProfileTargetDistributionInput) :
    Except ProfileTargetDistributionError ProfileTargetDistribution := do
  failWhen (isTokenizerIdentity input.identity = false) .invalidInput "identity is invalid"
  let profile ← (normalizeProfile input.profile).mapError (Fault.under "")
  let sampling ← (normalizeSampling input.sampling).mapError (Fault.under "")
  (denseArray input.accountings maxTargets "accountings").mapError (Fault.under "")
  failWhen (input.accountings.length ≠ sampling.selected.length) .invalidRelationship
    "accountings must contain exactly one result for every sampled target"
  let read ← input.accountings.zipIdx.mapM (observe input.identity)
  distributionOf input.identity profile sampling
    (Sorting.sortBy (Sorting.comparingWith compareUnits (·.path)) read)

end AgentContextLint.TargetDistribution
