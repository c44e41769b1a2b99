import AgentContextLint.Cli.GitMetadataExecutor
import AgentContextLint.Evidence.GitMetadataCollection

/-!
# The production executor among other processes

Model of the executor of `packages/cli/src/git-metadata-executor.ts` while other processes move
references, rewrite the index and rewrite tracked files. What they do is a history: the world at
every instant. Each observation of the executor takes one instant, so the world may change in any
way between two of them. All other refusals of the executor (identities that changed, limits of
time, cancellation) are a parameter: at any observation the collection may stop.

The state keeps `pendingFinalSnapshot` of the source, and a log of the intervals in which the
worktree was read.
-/

namespace AgentContextLint.GitObservation

open Utf16 Utf8 StatefulRuns

open GitMetadataCollection

/-- What other processes change: the objects that references name, the index, and the content of
the regular files that are read without a link. -/
structure World where
  references : Text → Option Text
  index : List UInt8
  file : RelativePath → Option (List UInt8)

/-- What Git says about commits and about an index. -/
structure Git where
  peel : Text → GitMetadataResponse
  mergeBases : Text → Text → GitMetadataResponse
  diffIndex : Text → List UInt8 → GitMetadataResponse

structure Host where
  git : Git
  history : Nat → World
  refuses : Nat → Option GitChangedFileFallbackReason
  lowerCase : Text → Text
  objectFormat : GitObjectFormat
  maximumOutputBytes : Nat

structure IndexSnapshot where
  bytes : List UInt8
  digest : Text
  parsed : ParsedGitIndex

structure WorktreeSnapshot where
  index : IndexSnapshot
  modifiedPaths : List RelativePath
  state : List UInt8

structure Session where
  instant : Nat
  pendingFinalSnapshot : Option WorktreeSnapshot
  readings : List (Nat × Nat)

abbrev Operation := StateT Session (Except GitChangedFileFallbackReason)

variable (host : Host)

def Session.next (session : Session) : Session := { session with instant := session.instant + 1 }

def observe {α : Type} (read : World → α) : Operation α := fun session =>
  match host.refuses session.instant with
  | some reason => .error reason
  | none => .ok (read (host.history session.instant), session.next)

/-! ## The index and the worktree -/

def readStableIndex : Operation IndexSnapshot := do
  let bytes ← observe host (·.index)
  stopIf (bytes.length < 1 ∨ bytes.length > maximumCommandOutputBytes) .commandFailed
  let parsed ← required .commandFailed (parsedIndex host.lowerCase bytes)
  stopIf (∃ entry ∈ parsed.entries, entry.stage ≠ 0) .commandFailed
  return ⟨bytes, Sha256.sha256Hex bytes, parsed⟩

def blobHeader (bytes : List UInt8) : List UInt8 :=
  encode (js ("blob " ++ toString bytes.length)) ++ [0]

def gitBlobObjectId (format : GitObjectFormat) (bytes : List UInt8) : Text :=
  TrackedFileEnumeration.hexText
    (TrackedFileEnumeration.checksum format (blobHeader bytes ++ bytes))

def maximumRawFileBytes : Nat := 16777216

/-- A modified file: its path and the object id of its content. -/
structure Modified where
  path : RelativePath
  objectId : Text

def isModified (entry : ParsedGitIndexEntry) (objectId : Text) : Option Modified :=
  if objectId ≠ entry.objectId then some ⟨entry.path, objectId⟩ else none

/-- The loop over the entries. -/
def readEntries (format : GitObjectFormat) : List ParsedGitIndexEntry → Operation (List Modified)
  | [] => pure []
  | entry :: rest => do
    stopIf (entry.stage ≠ 0 ∨ (entry.mode ≠ 0o100644 ∧ entry.mode ≠ 0o100755)) .commandFailed
    let file ← observe host (·.file entry.path)
    let bytes ← required .commandFailed file
    stopIf (bytes.length > maximumRawFileBytes) .commandFailed
    let later ← readEntries format rest
    return (isModified entry (gitBlobObjectId format bytes)).toList ++ later

def stateHeader : List UInt8 := encode (js "agent-context-worktree-state-v1")

/-- The fields of the state, each of which a NUL byte ends. -/
def stateFields (digest : Text) (modified : List Modified) : List (List UInt8) :=
  stateHeader :: encode digest ::
    modified.flatMap fun change => [encode (js "M"), encode change.path, encode change.objectId]

def stateOf (digest : Text) (modified : List Modified) : List UInt8 :=
  (stateFields digest modified).flatMap (· ++ [0])

def byteCompare (left right : Text) : Ordering := compare (encode left) (encode right)

def readWorktreeSnapshot : Operation WorktreeSnapshot := do
  let start := (← get).instant
  let index ← readStableIndex host
  let modified ← readEntries host index.parsed.objectFormat index.parsed.entries
  let finalIndex ← readStableIndex host
  stopIf (finalIndex.digest ≠ index.digest) .commandFailed
  let state := stateOf index.digest modified
  stopIf (state.length > maximumCommandOutputBytes) .commandFailed
  modify fun session =>
    { session with readings := session.readings ++ [(start, session.instant)] }
  return ⟨index, Sorting.sortBy byteCompare (modified.map (·.path)), state⟩

/-! ## Requests -/

def headName : Text := js "HEAD"

/-- An object id names itself, and only a base reference may be one. -/
def resolveReference (requested : Text) : Operation Text :=
  if requested.length = shaLength host.objectFormat ∧ requested.all Sha256.isHexDigit then
    pure requested
  else do
    let resolved ← observe host (·.references requested)
    required .commandFailed resolved

def postflight : Option WorktreeSnapshot → Operation Unit
  | none => pure ()
  | some snapshot => do
    let worktree ← readWorktreeSnapshot host
    stopIf (worktree.index.digest ≠ snapshot.index.digest ∨ worktree.state ≠ snapshot.state)
      .commandFailed

def resolve (requested : Text) (finalSnapshot : Option WorktreeSnapshot) :
    Operation GitMetadataResponse := do
  let reference ← resolveReference host requested
  let result := host.git.peel reference
  if result.exitCode ≠ 0 then return result
  else
    postflight host finalSnapshot
    let finalReference ← resolveReference host requested
    stopIf (finalReference ≠ reference) .commandFailed
    return result

def setPending (snapshot : Option WorktreeSnapshot) : Operation Unit :=
  modify fun session => { session with pendingFinalSnapshot := snapshot }

def diff (mergeBase : Text) : Operation GitMetadataResponse := do
  let before ← readStableIndex host
  let result ← observe host fun world => host.git.diffIndex mergeBase world.index
  if result.exitCode ≠ 0 then return result
  else
    let after ← readStableIndex host
    stopIf (before.digest ≠ after.digest) .commandFailed
    let worktree ← readWorktreeSnapshot host
    stopIf (worktree.index.digest ≠ before.digest) .commandFailed
    match GitMetadataExecutor.mergeWorktreeChanges result.stdout worktree.modifiedPaths
      host.maximumOutputBytes with
    | .error _ => stop .commandFailed
    | .ok stdout => return ⟨0, stdout⟩

def executor : GitMetadataRequest → Operation GitMetadataResponse
  | .indexState => do
    setPending none
    let index ← readStableIndex host
    stopIf (index.bytes.length > host.maximumOutputBytes) .commandFailed
    return ⟨0, index.bytes⟩
  | .worktreeState => do
    let worktree ← readWorktreeSnapshot host
    stopIf (worktree.state.length > host.maximumOutputBytes) .commandFailed
    setPending (some worktree)
    return ⟨0, worktree.state⟩
  | .resolveHead => do
    let finalSnapshot := (← get).pendingFinalSnapshot
    setPending none
    resolve host headName finalSnapshot
  | .resolveBase baseReference => resolve host baseReference none
  | .diff mergeBase => do
    setPending none
    diff host mergeBase
  | .mergeBases baseCommit headCommit => do
    setPending none
    return host.git.mergeBases baseCommit headCommit

def collect (baseReference : Text) : Operation GitChangedFileMetadataReady :=
  collectGitChangedFileMetadata host.lowerCase (executor host) baseReference

end AgentContextLint.GitObservation
