import AgentContextLint.Evidence.ChangedFileMetadata
import AgentContextLint.Evidence.TrackedFileEnumeration
import AgentContextLint.Lib.StatefulRuns

/-!
# Collecting changed-file metadata

Model of `collectGitChangedFileMetadata` and `reconcileGitChangedFileMetadata` of
`packages/evidence/src/changed-file-metadata.ts`. The executor is a program over a state that
answers one request after the other, or stops with the reason of the fallback. Metadata is
bound to one scan scope.
-/

namespace AgentContextLint.GitMetadataCollection

open Utf16 Utf8 StatefulRuns

/-! ## Requests -/

inductive GitMetadataRequest
  | resolveHead
  | resolveBase (baseReference : Text)
  | mergeBases (baseCommit headCommit : Text)
  | diff (mergeBase : Text)
  | indexState
  | worktreeState

structure GitMetadataResponse where
  exitCode : Int
  stdout : List UInt8

structure GitChangedFileMetadataReady where
  baseCommit : Text
  baseReference : Text
  changes : List GitChangedPath
  headCommit : Text
  indexObjectFormat : GitObjectFormat
  indexStateSha256 : Text
  indexVersion : Nat
  mergeBase : Text
  trackedPaths : List RelativePath
  worktreeStateSha256 : Text
  deriving DecidableEq

inductive GitChangedFileMetadata
  | fallback (baseReference : Text) (reason : GitChangedFileFallbackReason)
  | ready (metadata : GitChangedFileMetadataReady)
  deriving DecidableEq

def maximumBaseReferenceCodeUnits : Nat := 1024

def maximumBaseReferenceBytes : Nat := 1024

def maximumCommandOutputBytes : Nat := 16777216

/-- The limits under which an index is parsed. -/
def indexLimits : TrackedFileEnumerationLimits :=
  { trackedFileEnumerationDefaultLimits with
    maximumFiles := ChangedFileMetadata.maximumChangedPaths
    maximumIndexBytes := maximumCommandOutputBytes
    maximumIndexEntries := ChangedFileMetadata.maximumChangedPaths }

def containsUnsafeGitText (value : Text) : Bool :=
  value.any TrackedFileEnumeration.isUnsafePathUnit || !wellFormed value

def isValidGitBaseReference (value : Text) : Prop :=
  value ≠ [] ∧ value.head? ≠ some 0x2d ∧ value.length ≤ maximumBaseReferenceCodeUnits ∧
    containsUnsafeGitText value = false ∧ byteLength value ≤ maximumBaseReferenceBytes

instance (value : Text) : Decidable (isValidGitBaseReference value) :=
  inferInstanceAs (Decidable (_ ∧ _ ∧ _ ∧ _ ∧ _))

/-! ## Reading commits -/

/-- `SHA_PATTERN` -/
def isSha (value : Text) : Bool :=
  (value.length == 40 || value.length == 64) && value.all Sha256.isHexDigit

def oneSha (bytes : List UInt8) : Option Text :=
  let text := decodeLossy bytes
  if text.getLast? ≠ some 0x0a ∨ 0x0d ∈ text then none
  else if 0x0a ∉ text.dropLast ∧ isSha text.dropLast then some text.dropLast else none

def shaLines (bytes : List UInt8) : Option (List Text) :=
  let text := decodeLossy bytes
  if 0x0d ∈ text ∨ (text ≠ [] ∧ text.getLast? ≠ some 0x0a) then none
  else if text.dropLast.getLast? = some 0x0a then none
  else
    let values := if text.dropLast = [] then [] else text.dropLast.splitOn 0x0a
    if values.all isSha then some values else none

def shaLength : GitObjectFormat → Nat
  | .sha1 => 40
  | .sha256 => 64

/-! ## The collection -/

section Collection

variable {σ : Type} (lowerCase : Text → Text)
  (executor : GitMetadataRequest → StateT σ (Except GitChangedFileFallbackReason)
    GitMetadataResponse)

/-- The output of a request that succeeds. -/
def execute (request : GitMetadataRequest) :
    StateT σ (Except GitChangedFileFallbackReason) (List UInt8) := do
  let response ← executor request
  stopIf (response.exitCode ≠ 0) .commandFailed
  return response.stdout

def required {α : Type} (reason : GitChangedFileFallbackReason) :
    Option α → StateT σ (Except GitChangedFileFallbackReason) α
  | none => stop reason
  | some a => pure a

/-- A result, or the reason why it is refused. -/
def accepted {α : Type} :
    Except GitChangedFileFallbackReason α → StateT σ (Except GitChangedFileFallbackReason) α
  | .error reason => stop reason
  | .ok a => pure a

def parsedIndex (bytes : List UInt8) : Option ParsedGitIndex :=
  (TrackedFileEnumeration.parseGitIndex lowerCase bytes indexLimits).toOption

/-- The one merge base among the lines. -/
def oneMergeBase : List Text → Except GitChangedFileFallbackReason Text
  | [] => .error .noMergeBase
  | [mergeBase] => .ok mergeBase
  | _ => .error .multipleMergeBases

def collectGitChangedFileMetadata (baseReference : Text) :
    StateT σ (Except GitChangedFileFallbackReason) GitChangedFileMetadataReady := do
  stopIf (¬ isValidGitBaseReference baseReference) .invalidBaseReference
  let headOutput ← execute executor .resolveHead
  let headCommit ← required .invalidCommandOutput (oneSha headOutput)
  let baseOutput ← execute executor (.resolveBase baseReference)
  let baseCommit ← required .invalidCommandOutput (oneSha baseOutput)
  let mergeOutput ← execute executor (.mergeBases baseCommit headCommit)
  let mergeBases ← required .invalidCommandOutput (shaLines mergeOutput)
  let mergeBase ← accepted (oneMergeBase mergeBases)
  stopIf (baseCommit.length ≠ headCommit.length ∨ mergeBase.length ≠ headCommit.length)
    .invalidCommandOutput
  let diffOutput ← execute executor (.diff mergeBase)
  let changes ← accepted (ChangedFileMetadata.parseDiff diffOutput)
  let indexOutput ← execute executor .indexState
  let index ← required .invalidCommandOutput (parsedIndex lowerCase indexOutput)
  stopIf (shaLength index.objectFormat ≠ headCommit.length ∨
      ∃ entry ∈ index.entries, entry.stage ≠ 0) .unsupportedChangeState
  let worktreeOutput ← execute executor .worktreeState
  let finalHeadOutput ← execute executor .resolveHead
  let finalHeadCommit ← required .invalidCommandOutput (oneSha finalHeadOutput)
  stopIf (finalHeadCommit ≠ headCommit) .repositoryChanged
  return {
    baseCommit := baseCommit
    baseReference := baseReference
    changes := changes
    headCommit := headCommit
    indexObjectFormat := index.objectFormat
    indexStateSha256 := Sha256.sha256Hex indexOutput
    indexVersion := index.version
    mergeBase := mergeBase
    trackedPaths := index.paths
    worktreeStateSha256 := Sha256.sha256Hex worktreeOutput }

end Collection

/-- What a collection returns. An invalid reference is not repeated in the result. -/
def metadataOf {σ : Type} (baseReference : Text) :
    Except GitChangedFileFallbackReason (GitChangedFileMetadataReady × σ) → GitChangedFileMetadata
  | .ok (ready, _) => .ready ready
  | .error reason =>
    .fallback (if reason = .invalidBaseReference then [] else baseReference) reason

/-! ## Reconciliation -/

/-- All fields of ready metadata are compared, and the reference and the reason of a fallback. -/
def sameMetadata (left right : GitChangedFileMetadata) : Prop := left = right

instance (left right : GitChangedFileMetadata) : Decidable (sameMetadata left right) :=
  inferInstanceAs (Decidable (left = right))

def baseReferenceOf : GitChangedFileMetadata → Text
  | .fallback baseReference _ => baseReference
  | .ready metadata => metadata.baseReference

def reconcileGitChangedFileMetadata (before after : GitChangedFileMetadata) :
    GitChangedFileMetadata :=
  if sameMetadata before after then after
  else .fallback (baseReferenceOf before) .repositoryChanged

end AgentContextLint.GitMetadataCollection
