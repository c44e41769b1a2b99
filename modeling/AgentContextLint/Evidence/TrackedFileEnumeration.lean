import AgentContextLint.Core.RepositoryPath
import AgentContextLint.Lib.Netstring
import AgentContextLint.Lib.OrderedMap
import AgentContextLint.Lib.Sha1
import AgentContextLint.Lib.Sorting

/-!
# Tracked files of a Git index

Model of `packages/evidence/src/tracked-file-enumeration.ts`: the strict reading of an index file in
versions 2, 3 and 4. Reads are by offset into the whole file, as in the source, and every failure
is malformed or unsupported.

The body of the loop over the entries is in two parts: `readEntry` reads the bytes of an entry, and
`admitEntry` checks its place, its path and what it does to the paths so far. Lower-casing of paths
(`toLocaleLowerCase`) is a parameter.
-/

namespace AgentContextLint

open Utf16

/-- The limits that the reader of an index looks at. -/
structure TrackedFileEnumerationLimits where
  maximumDepth : Nat
  maximumFiles : Nat
  maximumIndexBytes : Nat
  maximumIndexEntries : Nat

def trackedFileEnumerationDefaultLimits : TrackedFileEnumerationLimits where
  maximumDepth := 128
  maximumFiles := 100000
  maximumIndexBytes := 16777216
  maximumIndexEntries := 1000000

/-- `kind` of an `IndexFailure`. -/
inductive IndexFailure
  | malformed
  | unsupported
  deriving DecidableEq

inductive GitObjectFormat
  | sha1
  | sha256
  deriving DecidableEq

structure ParsedGitIndexEntry where
  ctimeNanoseconds : Text
  device : Text
  inode : Text
  mode : Nat
  mtimeNanoseconds : Text
  objectId : Text
  path : RelativePath
  size : Nat
  stage : Nat
  deriving DecidableEq

structure ParsedGitIndex where
  entries : List ParsedGitIndexEntry
  objectFormat : GitObjectFormat
  paths : List RelativePath
  version : Nat
  deriving DecidableEq

namespace TrackedFileEnumeration

open RepositoryPath Sorting

/-- `if (condition) fail(kind)` -/
def failIf (condition : Bool) (kind : IndexFailure) : Except IndexFailure Unit :=
  if condition then .error kind else .ok ()

/-! ## Reading bytes -/

def indexHeaderBytes : Nat := 12

def byteAt (bytes : List UInt8) (offset : Nat) : Except IndexFailure Nat :=
  match bytes[offset]? with
  | some value => .ok value.toNat
  | none => .error .malformed

def u16 (bytes : List UInt8) (offset stop : Nat) : Except IndexFailure Nat := do
  failIf (stop < offset + 2) .malformed
  let high ← byteAt bytes offset
  let low ← byteAt bytes (offset + 1)
  return high * 0x100 + low

def u32 (bytes : List UInt8) (offset stop : Nat) : Except IndexFailure Nat := do
  failIf (stop < offset + 4) .malformed
  let first ← byteAt bytes offset
  let second ← byteAt bytes (offset + 1)
  let third ← byteAt bytes (offset + 2)
  let fourth ← byteAt bytes (offset + 3)
  return first * 0x1000000 + second * 0x10000 + third * 0x100 + fourth

/-- The loop of `nul` over `size` bytes. -/
def nulFrom (bytes : List UInt8) : (size offset : Nat) → Except IndexFailure Nat
  | 0, _ => .error .malformed
  | size + 1, offset =>
    if bytes[offset]? = some 0 then .ok offset else nulFrom bytes size (offset + 1)

def nul (bytes : List UInt8) (start stop : Nat) : Except IndexFailure Nat :=
  nulFrom bytes (stop - start) start

/-- `Number.MAX_SAFE_INTEGER` -/
def maxSafeInteger : Nat := 2 ^ 53 - 1

/-- The loop of `v4Remove`, for at most `count` bytes. -/
def v4RemoveFrom (bytes : List UInt8) (stop : Nat) :
    (count value offset : Nat) → Except IndexFailure (Nat × Nat)
  | 0, _, _ => .error .malformed
  | count + 1, value, offset => do
    failIf (stop ≤ offset) .malformed
    let byte ← byteAt bytes offset
    failIf (maxSafeInteger / 128 < value) .malformed
    let value := value * 128 + byte % 0x80
    if byte < 0x80 then return (value, offset + 1)
    else v4RemoveFrom bytes stop count (value + 1) (offset + 1)

def v4Remove (bytes : List UInt8) (start stop : Nat) : Except IndexFailure (Nat × Nat) :=
  v4RemoveFrom bytes stop 10 0 start

/-- `bytes.slice(start, stop)` -/
def slice (bytes : List UInt8) (start stop : Nat) : List UInt8 :=
  (bytes.drop start).take (stop - start)

/-- `toString("ascii")`, which unsets the highest bit of every byte. -/
def asciiText (bytes : List UInt8) : Text := bytes.map fun b => .ofNat (b.toNat % 0x80)

/-- `toString("hex")` -/
def hexText (bytes : List UInt8) : Text :=
  bytes.flatMap fun b => [Sha256.hexDigit (b.toNat / 0x10), Sha256.hexDigit (b.toNat % 0x10)]

/-! ## Paths -/

def isUnsafePathUnit (unit : CodeUnit) : Bool :=
  let n := unit.toNat
  n ≤ 0x1f || (0x7f ≤ n && n ≤ 0x9f) || n == 0x061c || n == 0x200e || n == 0x200f ||
    (0x202a ≤ n && n ≤ 0x202e) || (0x2066 ≤ n && n ≤ 0x2069)

def containsUnsafePathText (value : Text) : Bool := value.any isUnsafePathUnit

def pathValue (raw : List UInt8) (limits : TrackedFileEnumerationLimits) :
    Except IndexFailure RelativePath := do
  failIf (16384 < raw.length) .unsupported
  match Utf8.decode raw with
  | none => .error .unsupported
  | some text => do
    failIf (text.isEmpty || containsUnsafePathText text || text.getLast? == some 0x2f ||
      (pathSegments text).contains (js ".git") || text.contains 0x5c) .malformed
    match canonicalizeRepositoryRelativePath text .posix with
    | .error _ => .error .malformed
    | .ok canonical => do
      failIf (canonical != text || canonical == repositoryRoot) .malformed
      failIf (limits.maximumDepth < (pathSegments canonical).length) .unsupported
      return canonical

def compareBytes : (left right : List UInt8) → Int
  | l :: left, r :: right =>
    let difference : Int := l.toNat - r.toNat
    if difference ≠ 0 then difference else compareBytes left right
  | left, right => left.length - right.length

/-! ## Entries -/

/-- The bytes of an object id, and of the checksum. -/
def GitObjectFormat.oidBytes : GitObjectFormat → Nat
  | .sha1 => 20
  | .sha256 => 32

/-- `createHash(algorithm).update(content).digest()` -/
def checksum : GitObjectFormat → List UInt8 → List UInt8
  | .sha1, content => Sha1.sha1 content
  | .sha256, content => Sha256.sha256 content

@[simp] theorem length_checksum (format : GitObjectFormat) (content : List UInt8) :
    (checksum format content).length = GitObjectFormat.oidBytes format := by
  cases format <;> simp [checksum, GitObjectFormat.oidBytes]

/-- What the bytes of an entry say, and where the next one starts. -/
structure EntryRead where
  ctimeNanoseconds : Text
  device : Text
  inode : Text
  mode : Nat
  mtimeNanoseconds : Text
  objectId : Text
  size : Nat
  stage : Nat
  raw : List UInt8
  next : Nat

/-- `text.padStart(9, "0")` -/
def padStart9 (text : Text) : Text := List.replicate (9 - text.length) 0x30 ++ text

def instantText (seconds nanoseconds : Nat) : Text :=
  Netstring.decimalText seconds ++ padStart9 (Netstring.decimalText nanoseconds)

def readInstant (bytes : List UInt8) (offset stop : Nat) : Except IndexFailure Text := do
  let seconds ← u32 bytes offset stop
  let nanoseconds ← u32 bytes (offset + 4) stop
  return instantText seconds nanoseconds

/-- The extended flags, 0 where there are none, and where the name starts. -/
def readExtendedFlags (bytes : List UInt8) (version flags offset stop : Nat) :
    Except IndexFailure (Nat × Nat) := do
  let extended := flags &&& 0x4000 != 0
  failIf (version == 2 && extended) .malformed
  if extended then
    let extendedFlags ← u16 bytes offset stop
    failIf (extendedFlags &&& 0x9fff != 0) .unsupported
    return (extendedFlags, offset + 2)
  else return (0, offset)

/-- The name of a version 4 entry, which shares a prefix with the one before, and where it ends. -/
def readPrefixedName (bytes previousRaw : List UInt8) (offset stop : Nat) :
    Except IndexFailure (List UInt8 × Nat) := do
  let (remove, suffixStart) ← v4Remove bytes offset stop
  failIf (previousRaw.length < remove) .malformed
  let terminator ← nul bytes suffixStart stop
  return (previousRaw.take (previousRaw.length - remove) ++ slice bytes suffixStart terminator,
    terminator + 1)

/-- The name of a version 2 or 3 entry, and where its padding ends. -/
def readPaddedName (bytes : List UInt8) (entryStart offset stop : Nat) :
    Except IndexFailure (List UInt8 × Nat) := do
  let terminator ← nul bytes offset stop
  let entryLength := terminator + 1 - entryStart
  let next := terminator + 1 + (8 - entryLength % 8) % 8
  failIf (stop < next) .malformed
  failIf ((slice bytes (terminator + 1) next).any (· != 0)) .malformed
  return (slice bytes offset terminator, next)

def readName (version : Nat) (bytes previousRaw : List UInt8) (entryStart offset stop : Nat) :
    Except IndexFailure (List UInt8 × Nat) :=
  if version = 4 then readPrefixedName bytes previousRaw offset stop
  else readPaddedName bytes entryStart offset stop

def supportedModes : List Nat := [0o100644, 0o100755, 0o120000, 0o160000, 0o040000]

/-- The body of the entry loop up to the length of the name. -/
def readEntry (format : GitObjectFormat) (version : Nat) (bytes : List UInt8) (contentEnd : Nat)
    (previousRaw : List UInt8) (entryStart : Nat) : Except IndexFailure EntryRead := do
  let oidBytes := GitObjectFormat.oidBytes format
  failIf (contentEnd < entryStart + (40 + oidBytes + 2)) .malformed
  let ctimeNanoseconds ← readInstant bytes entryStart contentEnd
  let mtimeNanoseconds ← readInstant bytes (entryStart + 8) contentEnd
  let device ← u32 bytes (entryStart + 16) contentEnd
  let inode ← u32 bytes (entryStart + 20) contentEnd
  let mode ← u32 bytes (entryStart + 24) contentEnd
  failIf (!supportedModes.contains mode) .malformed
  let size ← u32 bytes (entryStart + 36) contentEnd
  let objectId := slice bytes (entryStart + 40) (entryStart + 40 + oidBytes)
  let flags ← u16 bytes (entryStart + 40 + oidBytes) contentEnd
  let (extendedFlags, nameStart) ←
    readExtendedFlags bytes version flags (entryStart + 40 + oidBytes + 2) contentEnd
  failIf (mode == 0o040000 || extendedFlags &&& 0x4000 != 0) .unsupported
  let (raw, next) ← readName version bytes previousRaw entryStart nameStart contentEnd
  let nameLength := flags &&& 0x0fff
  failIf ((nameLength == 0x0fff && raw.length < 0x0fff) ||
    (nameLength != 0x0fff && nameLength != raw.length)) .malformed
  return {
    ctimeNanoseconds, mtimeNanoseconds, mode, size, raw, next
    device := Netstring.decimalText device
    inode := Netstring.decimalText inode
    objectId := hexText objectId
    stage := flags >>> 12 &&& 3 }

/-- The variables of the entry loop. `seen` of the source has the members of `paths`. -/
structure IndexState where
  previousRaw : List UInt8
  previousStage : Int
  paths : List RelativePath
  entries : List ParsedGitIndexEntry
  lower : OrderedMap Text RelativePath
  previousUnique : Option RelativePath

def initialIndexState : IndexState where
  previousRaw := []
  previousStage := -1
  paths := []
  entries := []
  lower := .empty
  previousUnique := none

def entryOf (read : EntryRead) (path : RelativePath) : ParsedGitIndexEntry where
  ctimeNanoseconds := read.ctimeNanoseconds
  device := read.device
  inode := read.inode
  mode := read.mode
  mtimeNanoseconds := read.mtimeNanoseconds
  objectId := read.objectId
  path := path
  size := read.size
  stage := read.stage

section LowerCase

variable (lowerCase : Text → Text)

/-- What an entry does to the set of paths. -/
def admitPath (stage : Nat) (value : RelativePath) (state : IndexState) :
    Except IndexFailure IndexState :=
  if stage = 0 ∨ value ∉ state.paths then do
    let folded := lowerCase value
    let collision := state.lower.get? folded
    failIf (collision != none && collision != some value) .unsupported
    let state := { state with lower := state.lower.set folded value }
    if value ∉ state.paths then
      failIf (state.previousUnique.any fun previous => (previous ++ [0x2f]).isPrefixOf value)
        .malformed
      return { state with paths := state.paths ++ [value], previousUnique := some value }
    else return state
  else return state

/-- The body of the entry loop behind the length of the name. -/
def admitEntry (limits : TrackedFileEnumerationLimits) (index : Nat) (state : IndexState)
    (read : EntryRead) : Except IndexFailure IndexState := do
  let order := compareBytes state.previousRaw read.raw
  failIf (0 < index && (0 < order || (order == 0 && (read.stage : Int) ≤ state.previousStage)))
    .malformed
  failIf (order == 0 && state.previousStage == 0) .malformed
  let value ← pathValue read.raw limits
  admitPath lowerCase read.stage value
    { state with
      previousRaw := read.raw
      previousStage := read.stage
      entries := state.entries ++ [entryOf read value] }

/-- The loop over the entries, `count` of them to go. -/
def readEntries (format : GitObjectFormat) (version : Nat) (bytes : List UInt8) (contentEnd : Nat)
    (limits : TrackedFileEnumerationLimits) :
    (count index offset : Nat) → IndexState → Except IndexFailure (Nat × IndexState)
  | 0, _, offset, state => .ok (offset, state)
  | count + 1, index, offset, state => do
    let read ← readEntry format version bytes contentEnd state.previousRaw offset
    let state ← admitEntry lowerCase limits index state read
    readEntries format version bytes contentEnd limits count (index + 1) read.next state

/-! ## The file -/

/-- The loop over the extensions. -/
def readExtensions (bytes : List UInt8) (contentEnd offset : Nat) : Except IndexFailure Nat :=
  if offset < contentEnd then do
    failIf (contentEnd < offset + 8) .malformed
    let signature := slice bytes offset (offset + 4)
    let length ← u32 bytes (offset + 4) contentEnd
    failIf (contentEnd < offset + 8 + length) .malformed
    failIf (asciiText signature == js "link" || asciiText signature == js "sdir") .unsupported
    let first ← byteAt signature 0
    failIf (first < 0x41 || 0x5a < first) .unsupported
    readExtensions bytes contentEnd (offset + 8 + length)
  else .ok offset
termination_by contentEnd - offset

def parseCandidate (bytes : List UInt8) (format : GitObjectFormat)
    (limits : TrackedFileEnumerationLimits) : Except IndexFailure ParsedGitIndex := do
  let checksumBytes := GitObjectFormat.oidBytes format
  failIf (bytes.length < indexHeaderBytes + checksumBytes) .malformed
  let contentEnd := bytes.length - checksumBytes
  failIf (checksum format (bytes.take contentEnd) != bytes.drop contentEnd) .malformed
  failIf (asciiText (bytes.take 4) != js "DIRC") .malformed
  let version ← u32 bytes 4 contentEnd
  failIf (version != 2 && version != 3 && version != 4) .unsupported
  let entryCount ← u32 bytes 8 contentEnd
  failIf (limits.maximumIndexEntries < entryCount || limits.maximumFiles < entryCount) .unsupported
  let (offset, state) ← readEntries lowerCase format version bytes contentEnd limits entryCount 0
    indexHeaderBytes initialIndexState
  let offset ← readExtensions bytes contentEnd offset
  failIf (offset != contentEnd) .malformed
  return {
    entries := state.entries
    objectFormat := format
    paths := sortBy compareUnits state.paths
    version := version }

/-- The candidate widths are tried in order, and exactly one of them has to be accepted. -/
def parseGitIndex (bytes : List UInt8) (limits : TrackedFileEnumerationLimits) :
    Except IndexFailure ParsedGitIndex :=
  if limits.maximumIndexBytes < bytes.length then .error .unsupported
  else
    match parseCandidate lowerCase bytes .sha1 limits, parseCandidate lowerCase bytes .sha256 limits with
    | .ok candidate, .error _ | .error _, .ok candidate => .ok candidate
    | .ok _, .ok _ => .error .malformed
    | .error first, .error second =>
      .error (if first = .unsupported ∨ second = .unsupported then .unsupported else .malformed)

end LowerCase

end TrackedFileEnumeration

end AgentContextLint
