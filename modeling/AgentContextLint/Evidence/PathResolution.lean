import AgentContextLint.Evidence.ReadOnlyRepository
import AgentContextLint.Lib.PosixTree
import AgentContextLint.Lib.StatefulRuns
import AgentContextLint.Lib.Sorting
import AgentContextLint.Lib.Utf8Decoders

/-!
# The read-only repository facade

Model of the operations of `packages/evidence/src/read-only-filesystem.ts` under POSIX, over a
directory tree that does not change. An absolute path is the list of its segments. The budgets
are a state, and a parameter says what each look at the clock and the abort signal finds and
which calls of the platform fail. The loop over the segments has fuel; it never runs out
(`resolve_ends`).
-/

namespace AgentContextLint.ReadOnlyFacade

open Utf16 Utf8 PosixTree StatefulRuns
open RepositoryPath (canonicalizeRepositoryRelativePath joinSegments pathSegments repositoryRoot)

structure Limits where
  maximumEntries : Nat
  maximumFileBytes : Nat
  maximumMetadataOperations : Nat
  maximumSymlinkDepth : Nat
  maximumTotalBytes : Nat
  maximumTraversalDepth : Nat

def defaultLimits : Limits where
  maximumEntries := 100000
  maximumFileBytes := 1048576
  maximumMetadataOperations := 1000000
  maximumSymlinkDepth := 32
  maximumTotalBytes := 67108864
  maximumTraversalDepth := 128

inductive StatsType
  | directory
  | file
  | symbolicLink
  | other
  deriving DecidableEq

/-- What `lstat` says besides the type. -/
structure Attributes where
  dev : Nat
  ino : Nat
  mode : Nat
  size : Nat
  nlink : Nat
  ctimeNs : Nat
  mtimeNs : Nat
  deriving DecidableEq

structure BigIntStats where
  type : StatsType
  attributes : Attributes

abbrev AbsolutePath := List Text

/-- The platform: a tree, what it says about its nodes, the links it follows in one path, the
code of its failures, the calls that fail for other reasons, and how much one read returns. -/
structure Host (ν : Type) where
  tree : FileTree ν
  attributes : ν → Attributes
  content : ν → List UInt8
  names : ν → List Name
  symlinkMaximum : Nat
  causeCode : List Name → Option String
  fails : Nat → Option (Option String)
  fragment : Nat → Nat
  stops : Nat → Option ReadOnlyRepositoryError

structure Usage where
  entries : Nat
  metadataOperations : Nat
  totalBytes : Nat
  /-- The looks at the clock and the calls so far. -/
  moment : Nat

inductive Stop
  | outOfFuel
  | failed (failure : RepositoryFailure)

abbrev Operation := StateT Usage (Except Stop)

/-- A segment that names an entry. -/
structure Named (segment : Text) : Prop where
  ne_nil : segment ≠ []
  ne_dot : segment ≠ js "."
  slashless : (0x2f : CodeUnit) ∉ segment

/-- The root of a selection is normalized. -/
structure Facade where
  limits : Limits
  root : AbsolutePath
  identity : ReadOnlyRepositoryIdentity
  root_named : ∀ segment ∈ root, Named segment

structure Observation where
  path : AbsolutePath
  stats : BigIntStats

structure ResolvedEntry where
  absolutePath : AbsolutePath
  linkDepth : Nat
  observations : List Observation
  path : RelativePath
  stats : BigIntStats

structure ReadOnlyRepositoryDirectory extends ReadOnlyRepositoryEntry where
  entries : List RelativePath

def failure (code : ReadOnlyRepositoryErrorCode) (message operation : String)
    (pathValue : Option RelativePath) (causeCode : Option String) : Stop :=
  .failed (.readOnly ⟨code, message, operation, pathValue, causeCode⟩)

def sameIdentity (stats : BigIntStats) (identity : ReadOnlyRepositoryIdentity) : Prop :=
  js (toString stats.attributes.dev) = identity.device ∧
    js (toString stats.attributes.ino) = identity.inode

instance (stats : BigIntStats) (identity : ReadOnlyRepositoryIdentity) :
    Decidable (sameIdentity stats identity) :=
  inferInstanceAs (Decidable (_ ∧ _))

def sameEntry (left right : BigIntStats) : Prop := left.attributes = right.attributes

instance (left right : BigIntStats) : Decidable (sameEntry left right) :=
  inferInstanceAs (Decidable (left.attributes = right.attributes))

def sameDirectory (left right : BigIntStats) : Prop :=
  left.type = .directory ∧ right.type = .directory ∧ sameEntry left right

instance (left right : BigIntStats) : Decidable (sameDirectory left right) :=
  inferInstanceAs (Decidable (_ ∧ _ ∧ _))

def identityOf (stats : BigIntStats) : ReadOnlyRepositoryIdentity where
  device := js (toString stats.attributes.dev)
  inode := js (toString stats.attributes.ino)

/-! ## Texts -/

/-- Control characters and marks of the text direction. -/
def isUnsafeUnit (u : CodeUnit) : Bool :=
  u.toNat ≤ 0x1f || (0x7f ≤ u.toNat && u.toNat ≤ 0x9f) || u == 0x061c || u == 0x200e ||
    u == 0x200f || (0x202a ≤ u.toNat && u.toNat ≤ 0x202e) ||
    (0x2066 ≤ u.toNat && u.toNat ≤ 0x2069)

/-- A high surrogate at the end passes: the comparisons with the unit behind it are false. -/
def unsafeUnits : Text → Bool
  | [] => false
  | [u] => isUnsafeUnit u || (!isHighSurrogate u && isLowSurrogate u)
  | u :: next :: rest =>
    isUnsafeUnit u ||
      if isHighSurrogate u then !isLowSurrogate next || unsafeUnits rest
      else isLowSurrogate u || unsafeUnits (next :: rest)

def maximumTextBytes : Nat := 16384

def containsUnsafeText (value : Text) : Prop :=
  maximumTextBytes < byteLength value ∨ unsafeUnits value = true

instance (value : Text) : Decidable (containsUnsafeText value) :=
  inferInstanceAs (Decidable (_ ∨ _))

def normalizedRelativePath (limits : Limits) (value : Text) : Operation RelativePath := do
  stopIf (containsUnsafeText value)
    (failure .invalidPath "repository-relative path is invalid" "validate-path" none none)
  match canonicalizeRepositoryRelativePath value .posix with
  | .error _ =>
    stop (failure .invalidPath "repository-relative path is invalid" "validate-path" none none)
  | .ok normalized => do
    stopIf (normalized ≠ value) (failure .invalidPath
      "repository-relative path must already be canonical" "validate-path" none none)
    let depth := if normalized = repositoryRoot then 0
      else (pathSegments normalized).length
    stopIf (depth > limits.maximumTraversalDepth)
      (failure .limitExceeded "repository traversal depth limit was exceeded" "path-depth"
        (some normalized) none)
    return normalized

def validateDirectoryName (parent : RelativePath) (value : Text) : Operation Text := do
  stopIf (value = [] ∨ value = js "." ∨ value = js ".." ∨ 0x2f ∈ value ∨ 0x5c ∈ value ∨
      containsUnsafeText value)
    (failure .invalidPath "repository directory contains an invalid entry name"
      "validate-directory-entry" (some parent) none)
  return value

/-- `path.posix.resolve` of segments behind an absolute path: parent segments remove the segment
before them. -/
def resolveSegments : AbsolutePath → List Text → AbsolutePath
  | found, [] => found
  | found, segment :: rest =>
    if segment = [] ∨ segment = js "." then resolveSegments found rest
    else if segment = js ".." then resolveSegments found.dropLast rest
    else resolveSegments (found ++ [segment]) rest

def isForbiddenControl (u : CodeUnit) : Bool :=
  u.toNat ≤ 0x1f || u == 0x7f || (0x202a ≤ u.toNat && u.toNat ≤ 0x202e) ||
    (0x2066 ≤ u.toNat && u.toNat ≤ 0x2069)

def isAbsolute (value : Text) : Prop := value.head? = some 0x2f

instance (value : Text) : Decidable (isAbsolute value) :=
  inferInstanceAs (Decidable (value.head? = some 0x2f))

/-- What `normalizeRepositorySelectionPath` refuses. -/
def refusesSelectionPath (input : Text) : Prop :=
  wellFormed input = false ∨ (∃ u ∈ input, isForbiddenControl u = true) ∨
    maximumTextBytes < byteLength input ∨ ¬ isAbsolute input ∨ 0x5c ∈ input ∨
    ∃ segment ∈ pathSegments input, segment = js "." ∨ segment = js ".."

instance (input : Text) : Decidable (refusesSelectionPath input) :=
  inferInstanceAs (Decidable (_ ∨ _ ∨ _ ∨ _ ∨ _ ∨ _))

def normalizeRepositorySelectionPath (input : Text) : Option AbsolutePath :=
  if refusesSelectionPath input then none
  else some (resolveSegments [] (pathSegments input))

/-! ## Calls of the platform -/

variable {ν : Type} (host : Host ν) (facade : Facade)

def statsType : Kind → StatsType
  | .directory => .directory
  | .file => .file
  | .link _ => .symbolicLink
  | .other => .other

def Host.statsOf (y : ν) : BigIntStats := ⟨statsType (host.tree.kind y), host.attributes y⟩

/-- The node of an absolute path, its last segment not followed. -/
def Host.entry (target : AbsolutePath) : Option ν :=
  host.tree.entry host.symlinkMaximum (target.map encode)

/-- An outcome of the platform, with the code of a failure. -/
def Host.outcome {α : Type} (target : AbsolutePath) (found : Option α) : Except (Option String) α :=
  match found with
  | none => .error (host.causeCode (target.map encode))
  | some a => .ok a

def Host.lstat (target : AbsolutePath) : Except (Option String) BigIntStats :=
  host.outcome target ((host.entry target).map host.statsOf)

def linkTarget : Kind → Option (List UInt8)
  | .link target => some target
  | _ => none

def Host.readlink (target : AbsolutePath) : Except (Option String) Text :=
  host.outcome target
    ((host.entry target).bind fun y => (linkTarget (host.tree.kind y)).map decodeLossy)

/-- With `O_NOFOLLOW` a link is not opened. -/
def Host.openFile (target : AbsolutePath) : Except (Option String) ν :=
  host.outcome target
    ((host.entry target).filter fun y => (linkTarget (host.tree.kind y)).isNone)

def Host.openDirectory (target : AbsolutePath) : Except (Option String) ν :=
  host.outcome target
    ((walk host.tree host.symlinkMaximum host.tree.top (target.map encode)).filter fun y =>
      host.tree.kind y = .directory)

def advance (usage : Usage) : Usage := { usage with moment := usage.moment + 1 }

def checkpoint : Operation Unit := fun usage =>
  match host.stops usage.moment with
  | some error => .error (.failed (.readOnly error))
  | none => .ok ((), advance usage)

/-- The platform fails by itself, or the call has its outcome. -/
def settle {α : Type} (failed : Option String → Stop) (outcome : Except (Option String) α) :
    Operation α := fun usage =>
  match host.fails usage.moment, outcome with
  | some cause, _ => .error (failed cause)
  | none, .error cause => .error (failed cause)
  | none, .ok a => .ok (a, advance usage)

/-- The second look is the race against the deadline and the signal. -/
def awaitBounded {α : Type} (failed : Option String → Stop)
    (outcome : Except (Option String) α) : Operation α := do
  checkpoint host
  checkpoint host
  let value ← settle host failed outcome
  checkpoint host
  return value

def countOperation (pathValue : Option RelativePath) : Operation Unit := do
  checkpoint host
  modify fun usage => { usage with metadataOperations := usage.metadataOperations + 1 }
  stopIf ((← get).metadataOperations > facade.limits.maximumMetadataOperations)
    (failure .limitExceeded "repository metadata operation limit was exceeded" "metadata-limit"
      pathValue none)

def call {α : Type} (pathValue : Option RelativePath)
    (failed : Option String → Stop) (outcome : Except (Option String) α) : Operation α := do
  countOperation host facade pathValue
  awaitBounded host failed outcome

def lstat (target : AbsolutePath) (pathValue : Option RelativePath) : Operation BigIntStats :=
  call host facade pathValue
    (failure .pathUnavailable "repository path cannot be inspected" "lstat" pathValue)
    (host.lstat target)

def readlink (target : AbsolutePath) (pathValue : RelativePath) : Operation Text :=
  call host facade (some pathValue)
    (failure .pathUnavailable "repository symbolic link cannot be inspected" "readlink"
      (some pathValue))
    (host.readlink target)

def assertRoot : Operation Unit := do
  let stats ← lstat host facade facade.root none
  stopIf (stats.type ≠ .directory ∨ ¬ sameIdentity stats facade.identity)
    (failure .pathChanged "repository root changed after selection" "recheck-root" none none)

/-! ## Resolution -/

/-- The variables of the loop. -/
structure Walk where
  pending : List Text
  resolved : List Text
  linkDepth : Nat
  observations : List Observation
  visited : List (AbsolutePath × Nat × Nat)

def invalidTarget (path : RelativePath) : Stop :=
  failure .invalidPath "repository symbolic link contains an invalid target" "resolve-link"
    (some path) none

def outsideTarget (path : RelativePath) : Stop :=
  failure .outsideRoot "repository symbolic link target is outside the selected root"
    "resolve-link" (some path) none

/-- The target of a link in `directory`. -/
def targetOf (directory : AbsolutePath) (linkValue : Text) : Option AbsolutePath :=
  if isAbsolute linkValue then normalizeRepositorySelectionPath linkValue
  else some (resolveSegments directory (pathSegments linkValue))

def linkKey (candidate : AbsolutePath) (stats : BigIntStats) : AbsolutePath × Nat × Nat :=
  (candidate, stats.attributes.dev, stats.attributes.ino)

/-- The round at a link: `walk` is the state behind its `lstat`. -/
def followLink (path : RelativePath) (candidate : AbsolutePath) (stats : BigIntStats)
    (walk : Walk) : Operation Walk := do
  stopIf (walk.linkDepth + 1 > facade.limits.maximumSymlinkDepth)
    (failure .limitExceeded "repository symbolic-link depth limit was exceeded" "resolve-link"
      (some path) none)
  stopIf (linkKey candidate stats ∈ walk.visited)
    (failure .symlinkLoop "repository symbolic-link loop was detected" "resolve-link" (some path)
      none)
  let linkValue ← readlink host facade candidate path
  stopIf (containsUnsafeText linkValue ∨ 0x5c ∈ linkValue) (invalidTarget path)
  let linkFinal ← lstat host facade candidate (some path)
  stopIf (¬ sameEntry stats linkFinal ∨ linkFinal.type ≠ .symbolicLink)
    (failure .pathChanged "repository symbolic link changed while resolving" "resolve-link"
      (some path) none)
  match targetOf candidate.dropLast linkValue with
  | none => stop (outsideTarget path)
  | some target => do
    stopIf (¬ facade.root <+: target) (outsideTarget path)
    return {
      pending := target.drop facade.root.length ++ walk.pending
      resolved := []
      linkDepth := walk.linkDepth + 1
      observations := walk.observations
      visited := linkKey candidate stats :: walk.visited }

/-- One round for the first pending segment. -/
def resolveSegment (path : RelativePath) (walk : Walk) (segment : Text)
    (rest : List Text) : Operation Walk := do
  checkpoint host
  stopIf (walk.resolved.length + (rest.length + 1) > facade.limits.maximumTraversalDepth)
    (failure .limitExceeded "repository traversal depth limit was exceeded" "resolve-path"
      (some path) none)
  let candidate := facade.root ++ walk.resolved ++ [segment]
  let stats ← lstat host facade candidate (some path)
  let observed : Walk :=
    { walk with pending := rest, observations := walk.observations ++ [⟨candidate, stats⟩] }
  if stats.type = .symbolicLink then followLink host facade path candidate stats observed
  else do
    stopIf (rest ≠ [] ∧ stats.type ≠ .directory)
      (failure .notDirectory "repository path component is not a directory" "resolve-path"
        (some path) none)
    return { observed with resolved := walk.resolved ++ [segment] }

def resolveLoop (path : RelativePath) : (fuel : Nat) → Walk → Operation Walk
  | 0, walk => if walk.pending = [] then pure walk else stop .outOfFuel
  | fuel + 1, walk =>
    match walk.pending with
    | [] => pure walk
    | segment :: rest => do
      let walk ← resolveSegment host facade path walk segment rest
      resolveLoop path fuel walk

def Limits.rounds (limits : Limits) : Nat :=
  (limits.maximumSymlinkDepth + 1) * (limits.maximumTraversalDepth + 1)

/-- `repositoryRelativePathToAbsolute` of the segments found. A text that is not canonical is
refused with an error of its own. -/
def absolutePathOf (resolved : List Text) : Option AbsolutePath :=
  match canonicalizeRepositoryRelativePath (joinSegments resolved)
    .posix with
  | .error _ => none
  | .ok relativePath =>
    if RepositoryPath.isRepositoryRelativePath relativePath then
      some (if relativePath = repositoryRoot then facade.root
        else facade.root ++ pathSegments relativePath)
    else none

def initialWalk (path : RelativePath) : Walk where
  pending := pathSegments path
  resolved := []
  linkDepth := 0
  observations := []
  visited := []

def resolve (path : RelativePath) : Operation ResolvedEntry := do
  if path = repositoryRoot then
    let rootStats ← lstat host facade facade.root (some path)
    return ⟨facade.root, 0, [⟨facade.root, rootStats⟩], path, rootStats⟩
  else
    let walk ← resolveLoop host facade path facade.limits.rounds (initialWalk path)
    match absolutePathOf facade walk.resolved with
    | none => stop (.failed .other)
    | some absolutePath =>
      match walk.observations.getLast? with
      | none => stop (failure .pathUnavailable "repository path could not be resolved"
          "resolve-path" (some path) none)
      | some last => return ⟨absolutePath, walk.linkDepth, walk.observations, path, last.stats⟩

/-! ## Operations -/

def assertUnambiguousFile (stats : BigIntStats) (pathValue : RelativePath) : Operation Unit :=
  stopIf (stats.attributes.nlink ≠ 1) (failure .hardLink
    "repository file has ambiguous hard-link identity" "inspect-hard-link" (some pathValue) none)

def assertSupportedType (stats : BigIntStats) (pathValue : RelativePath) : Operation Unit := do
  stopIf (stats.type ≠ .directory ∧ stats.type ≠ .file) (failure .unsafeType
    "repository entry is not a regular file or directory" "inspect-type" (some pathValue) none)
  if stats.type = .file then assertUnambiguousFile stats pathValue

def boundedFileSize (stats : BigIntStats) (pathValue : RelativePath) : Operation Nat := do
  stopIf (stats.attributes.size > facade.limits.maximumFileBytes) (failure .limitExceeded
    "repository file exceeds the per-file byte limit" "file-size" (some pathValue) none)
  return stats.attributes.size

def consumeEntries (count : Nat) (pathValue : RelativePath) : Operation Unit := do
  stopIf ((← get).entries + count > facade.limits.maximumEntries) (failure .limitExceeded
    "repository entry-count limit was exceeded" "entry-limit" (some pathValue) none)
  modify fun usage => { usage with entries := usage.entries + count }

def consumeBytes (count : Nat) (pathValue : RelativePath) : Operation Unit := do
  stopIf ((← get).totalBytes + count > facade.limits.maximumTotalBytes) (failure .limitExceeded
    "repository aggregate byte limit was exceeded" "byte-limit" (some pathValue) none)
  modify fun usage => { usage with totalBytes := usage.totalBytes + count }

def Observation.stable (observation : Observation) (finalStats : BigIntStats) : Prop :=
  if observation.stats.type = .directory then sameDirectory observation.stats finalStats
  else sameEntry observation.stats finalStats

instance (observation : Observation) (finalStats : BigIntStats) :
    Decidable (observation.stable finalStats) := by
  unfold Observation.stable
  infer_instance

def recheck (resolved : ResolvedEntry) : Operation Unit :=
  resolved.observations.forM fun observation => do
    let finalStats ← lstat host facade observation.path (some resolved.path)
    stopIf (¬ observation.stable finalStats) (failure .pathChanged
      "repository path changed during read-only access" "recheck-path" (some resolved.path) none)

def entryOf (resolved : ResolvedEntry) : Operation ReadOnlyRepositoryEntry := do
  assertSupportedType resolved.stats resolved.path
  if resolved.stats.type = .directory then
    return ⟨identityOf resolved.stats, resolved.linkDepth, resolved.path, 0, .directory⟩
  else
    let size ← boundedFileSize facade resolved.stats resolved.path
    return ⟨identityOf resolved.stats, resolved.linkDepth, resolved.path, size, .file⟩

def inspect (relativePath : Text) : Operation ReadOnlyRepositoryEntry := do
  checkpoint host
  let normalized ← normalizedRelativePath facade.limits relativePath
  assertRoot host facade
  let resolved ← resolve host facade normalized
  consumeEntries facade 1 normalized
  assertSupportedType resolved.stats normalized
  recheck host facade resolved
  assertRoot host facade
  entryOf facade resolved

/-- The names that a directory handle reads, each counted and validated. -/
def readNames (pathValue : RelativePath) : List Name → Operation (List Text)
  | [] => do
    let _ ← call host facade (some pathValue)
      (failure .readFailed "repository directory cannot be read safely" "read-directory-entry"
        (some pathValue)) (.ok ())
    return []
  | name :: rest => do
    let name ← call host facade (some pathValue)
      (failure .readFailed "repository directory cannot be read safely" "read-directory-entry"
        (some pathValue)) (.ok (decodeLossy name))
    consumeEntries facade 1 pathValue
    let name ← validateDirectoryName pathValue name
    return name :: (← readNames pathValue rest)

/-- A failure while reading closes the handle and is thrown; the close of a complete reading may
fail itself. -/
def readDirectoryNames (target : AbsolutePath) (pathValue : RelativePath) :
    Operation (List Text) := do
  let handle ← call host facade (some pathValue)
    (failure .readFailed "repository directory cannot be opened safely" "open-directory"
      (some pathValue)) (host.openDirectory target)
  let names ← readNames host facade pathValue (host.names handle)
  awaitBounded host (failure .closeFailed
    "repository directory handle could not be closed safely" "close-directory" (some pathValue))
    (.ok ())
  return names

/-- The path of a name in a directory; a text that is not a canonical path is thrown. -/
def childPath (directory : RelativePath) (name : Text) : Operation RelativePath :=
  match canonicalizeRepositoryRelativePath
    (if directory = repositoryRoot then name else directory ++ 0x2f :: name)
    .posix with
  | .error _ => stop (.failed .other)
  | .ok path => pure path

def readDirectory (relativePath : Text) : Operation ReadOnlyRepositoryDirectory := do
  checkpoint host
  let normalized ← normalizedRelativePath facade.limits relativePath
  assertRoot host facade
  let resolved ← resolve host facade normalized
  stopIf (resolved.stats.type ≠ .directory) (failure .notDirectory
    "repository path is not a directory" "read-directory" (some normalized) none)
  consumeEntries facade 1 normalized
  let names ← readDirectoryNames host facade resolved.absolutePath normalized
  let names ← names.mapM (validateDirectoryName normalized)
  let entries ← (Sorting.sortBy compareUnits names).mapM (childPath normalized)
  recheck host facade resolved
  assertRoot host facade
  let base ← entryOf facade resolved
  return { base with entries := entries, type := .directory }

def handleStat (handle : ν) (pathValue : RelativePath) : Operation BigIntStats :=
  call host facade (some pathValue)
    (failure .readFailed "repository file handle cannot be inspected safely" "stat-file"
      (some pathValue))
    (.ok (host.statsOf handle))

/-- A read returns at least a byte if there is one. -/
def handleRead (handle : ν) (offset length : Nat) (pathValue : RelativePath) :
    Operation (List UInt8) := do
  let atMost := 1 + host.fragment (← get).moment
  call host facade (some pathValue)
    (failure .readFailed "repository file content cannot be read safely" "read-file"
      (some pathValue))
    (.ok (((host.content handle).drop offset).take (min length atMost)))

/-- The loop that fills the buffer, which has room for one byte more than expected. Every round
fills a byte or is the last, so that many rounds are all. -/
def readLoop (handle : ν) (expectedBytes : Nat) (pathValue : RelativePath) :
    (rounds : Nat) → List UInt8 → Operation (List UInt8)
  | 0, buffer => pure buffer
  | rounds + 1, buffer =>
    if buffer.length < expectedBytes + 1 then do
      let fragment ← handleRead host facade handle buffer.length
        (expectedBytes + 1 - buffer.length) pathValue
      if fragment = [] then do
        stopIf (buffer.length ≠ expectedBytes) (failure .pathChanged
          "repository file ended before its advertised size" "read-file" (some pathValue) none)
        return buffer
      else do
        stopIf (buffer.length + fragment.length > expectedBytes) (failure .pathChanged
          "repository file grew while it was being read" "read-file" (some pathValue) none)
        readLoop handle expectedBytes pathValue rounds (buffer ++ fragment)
    else return buffer

def readStableFile (resolved : ResolvedEntry) (expectedBytes : Nat) : Operation (List UInt8) := do
  let handle ← call host facade (some resolved.path)
    (failure .readFailed "repository file cannot be opened safely" "open-file"
      (some resolved.path)) (host.openFile resolved.absolutePath)
  let openedStats ← handleStat host facade handle resolved.path
  stopIf (¬ sameEntry resolved.stats openedStats ∨ openedStats.type ≠ .file) (failure .pathChanged
    "repository file changed before reading" "read-file" (some resolved.path) none)
  assertUnambiguousFile openedStats resolved.path
  let content ← readLoop host facade handle expectedBytes resolved.path (expectedBytes + 1) []
  let completedStats ← handleStat host facade handle resolved.path
  stopIf (¬ sameEntry openedStats completedStats) (failure .pathChanged
    "repository file changed while it was being read" "read-file" (some resolved.path) none)
  awaitBounded host (failure .closeFailed "repository file handle could not be closed safely"
    "close-file" (some resolved.path)) (.ok ())
  recheck host facade resolved
  return content.take expectedBytes

def readFile (relativePath : Text) : Operation ReadOnlyRepositoryFile := do
  checkpoint host
  let normalized ← normalizedRelativePath facade.limits relativePath
  assertRoot host facade
  let resolved ← resolve host facade normalized
  stopIf (resolved.stats.type ≠ .file) (failure .notFile
    "repository path is not a regular file" "read-file" (some normalized) none)
  assertUnambiguousFile resolved.stats normalized
  let size ← boundedFileSize facade resolved.stats normalized
  consumeEntries facade 1 normalized
  consumeBytes facade size normalized
  let bytes ← readStableFile host facade resolved size
  assertRoot host facade
  return ⟨identityOf resolved.stats, resolved.linkDepth, normalized, bytes.length, bytes⟩

end AgentContextLint.ReadOnlyFacade
