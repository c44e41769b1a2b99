import AgentContextLint.Core.RepositoryPath
import AgentContextLint.Lib.Sorting
import AgentContextLint.Lib.Utf8Decoders

/-!
# Changed-file metadata

Model of `packages/evidence/src/changed-file-metadata.ts`: what is read from the output of Git.
`parseDiff` reads a name-status listing, whose fields end with a NUL byte, into changes in the
order of the bytes of their paths.
-/

namespace AgentContextLint

open Utf16 Utf8 Metered Sorting

inductive GitChangeStatus
  | added
  | copied
  | deleted
  | modified
  | renamed
  | typeChanged
  deriving DecidableEq

structure GitChangedPath where
  path : RelativePath
  previousPath : Option RelativePath
  status : GitChangeStatus
  deriving DecidableEq

inductive GitChangedFileFallbackReason
  | cancelled
  | commandFailed
  | invalidBaseReference
  | invalidCommandOutput
  | multipleMergeBases
  | noMergeBase
  | resourceLimit
  | repositoryChanged
  | unsupportedChangeState
  | untrackedFiles
  deriving DecidableEq

namespace ChangedFileMetadata

def maximumChangedPaths : Nat := 100000

def maximumPathBytes : Nat := 16384

/-! ## Fields -/

/-- What stands in front of each NUL byte, if the bytes end with one or are none at all. -/
def nulFields (bytes : List UInt8) : Option (List (List UInt8)) :=
  let pieces := bytes.splitOn 0
  if pieces.getLast? = some [] then some pieces.dropLast else none

def pathFromBytes (value : List UInt8) : Option RelativePath :=
  if value = [] ∨ maximumPathBytes < value.length then none
  else match decodeWithoutBom value with
    | none => none
    | some text =>
      if 0x5c ∈ text ∨ text.getLast? = some 0x2f then none
      else match RepositoryPath.canonicalizeRepositoryRelativePath text .posix with
        | .error _ => none
        | .ok path =>
          if path = text ∧ path ≠ RepositoryPath.repositoryRoot ∧
              js ".git" ∉ RepositoryPath.pathSegments path then some path
          else none

/-! ## Changes -/

/-- `100|[1-9]?[0-9]` -/
def isSimilarity : List UInt8 → Bool
  | [a] => 0x30 ≤ a && a ≤ 0x39
  | [a, b] => 0x31 ≤ a && a ≤ 0x39 && 0x30 ≤ b && b ≤ 0x39
  | [a, b, c] => a == 0x31 && b == 0x30 && c == 0x30
  | _ => false

/-- `[ADMT]|[CR](?:100|[1-9]?[0-9])` -/
def changeStatus : List UInt8 → Option GitChangeStatus
  | [] => none
  | code :: similarity =>
    if code = 0x43 ∧ isSimilarity similarity then some .copied
    else if code = 0x52 ∧ isSimilarity similarity then some .renamed
    else if similarity ≠ [] then none
    else if code = 0x41 then some .added
    else if code = 0x44 then some .deleted
    else if code = 0x4d then some .modified
    else if code = 0x54 then some .typeChanged
    else none

/-- One round of the loop over the fields: a change, and the fields behind it. -/
def readChange (statusBytes : List UInt8) (fields : List (List UInt8)) :
    Except GitChangedFileFallbackReason (GitChangedPath × List (List UInt8)) := do
  refuseIf (∃ byte ∈ statusBytes, 0x7f < byte) .invalidCommandOutput
  match changeStatus statusBytes with
  | none => .error .unsupportedChangeState
  | some status =>
    match pathFromBytes (fields.headD []) with
    | none => .error .invalidCommandOutput
    | some first =>
      if status = .copied ∨ status = .renamed then
        match pathFromBytes (fields.tail.headD []) with
        | none => .error .invalidCommandOutput
        | some second => do
          refuseIf (second = first) .invalidCommandOutput
          return (⟨second, some first, status⟩, fields.tail.tail)
      else return (⟨first, none, status⟩, fields.tail)

/-- The loop, for at most `fuel` rounds, behind the changes read so far. -/
def readChanges : (fuel : Nat) → List GitChangedPath → List (List UInt8) →
    Except GitChangedFileFallbackReason (List GitChangedPath)
  | 0, changes, _ => .ok changes
  | _ + 1, changes, [] => .ok changes
  | fuel + 1, changes, statusBytes :: fields => do
    refuseIf (changes.length ≥ maximumChangedPaths) .resourceLimit
    let (change, rest) ← readChange statusBytes fields
    readChanges fuel (changes ++ [change]) rest

/-- The paths that the set `unique` is to have once each. -/
def namedPaths (change : GitChangedPath) : List RelativePath :=
  change.path :: change.previousPath.toList

def sortKey (change : GitChangedPath) : Text :=
  change.path ++ [0] ++ change.previousPath.getD []

def parseDiff (bytes : List UInt8) : Except GitChangedFileFallbackReason (List GitChangedPath) :=
  match nulFields bytes with
  | none => .error .invalidCommandOutput
  | some fields => do
    let changes ← readChanges fields.length [] fields
    refuseIf (¬ (changes.flatMap namedPaths).Nodup) .invalidCommandOutput
    return sortBy (comparingBytes sortKey) changes

end ChangedFileMetadata

end AgentContextLint
