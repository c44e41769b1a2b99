import AgentContextLint.Cli.QuietCollection
import AgentContextLint.Cli.RawListing
import AgentContextLint.Cli.WorktreeState

/-!
# What reconciled metadata describes

Metadata is collected in front of a scan and behind it. If the two collections agree, then the
worktree and the index that the first has read are those that the second has read, and as nothing
that has been left comes back, they have not changed in between (`reconciled_describes_one_state`).
-/

namespace AgentContextLint.GitObservation

open Utf16 Utf8 StatefulRuns

open GitMetadataCollection
open ChangedFileMetadata (Printable rawStatus)

/-! ## Assumptions -/

/-- What is left does not come back. -/
def NoReturn {α : Type} (value : Nat → Option α) : Prop :=
  ∀ a first middle last, first ≤ middle → middle ≤ last → value first = some a →
    value last = some a → value middle = some a

structure NeverReturns (history : Nat → World) : Prop where
  references : ∀ name, NoReturn fun instant => (history instant).references name
  index : NoReturn fun instant => some (history instant).index
  files : ∀ path, NoReturn fun instant => (history instant).file path

/-- The content of the files of a commit. -/
abbrev Tree := Text → RelativePath → Option (List UInt8)

/-- The listing of an index without unmerged entries has every entry whose object is not the one
of the commit. -/
def ListsDifferences (host : Host) (tree : Tree) : Prop :=
  ∀ commit instant parsed, parsedIndex host.lowerCase (host.history instant).index = some parsed →
    (∀ entry ∈ parsed.entries, entry.stage = 0) →
    (host.git.diffIndex commit (host.history instant).index).exitCode = 0 →
    ∃ listing, Printable listing ∧
      (host.git.diffIndex commit (host.history instant).index).stdout =
        rawStatus listing ∧
      ∀ entry ∈ parsed.entries,
        (tree commit entry.path).map (gitBlobObjectId parsed.objectFormat) ≠ some entry.objectId →
        ∃ listed ∈ listing, listed.2 = encode entry.path

def indexContents (host : Host) : Set (List UInt8) :=
  { bytes | ∃ instant, (host.history instant).index = bytes }

def worktreeStates (host : Host) : Set (List UInt8) :=
  { state | ∃ reading, WorktreeAt host reading ∧ reading.snapshot.state = state }

def fileContents (host : Host) (tree : Tree) : Set (List UInt8) :=
  { content | (∃ instant path, (host.history instant).file path = some content) ∨
    ∃ commit path, tree commit path = some content }

/-- What Git, the hash functions and the decoder of paths are taken for. -/
structure Assumed (host : Host) (tree : Tree) : Prop where
  /-- HEAD names a commit, and a commit is peeled to itself. -/
  head : ∀ instant reference commit, (host.history instant).references headName = some reference →
    oneSha (host.git.peel reference).stdout = some commit → reference = commit
  lists : ListsDifferences host tree
  indexes : Set.InjOn Sha256.sha256Hex (indexContents host)
  states : Set.InjOn Sha256.sha256Hex (worktreeStates host)
  blobs : ∀ format, Set.InjOn (gitBlobObjectId format) (fileContents host tree)
  /-- The decoder of a listing takes no path for another one. -/
  decoded : ∀ instant parsed, parsedIndex host.lowerCase (host.history instant).index = some parsed →
    ∀ path ∈ parsed.paths, ¬ StartsWithBom path

/-! ## Two collections with one result -/

variable {host : Host} {tree : Tree}

theorem IndexAt.parsed_eq {first second : Nat} {one two : IndexSnapshot}
    (left : IndexAt host first one) (right : IndexAt host second two)
    (same : one.bytes = two.bytes) : one.parsed = two.parsed := by
  have parsed := left.parsed
  rw [same, right.parsed] at parsed
  exact (Option.some.inj parsed).symm

section Agreeing

variable {one two : Trace} {start finish resumed last : Session}
  {result : GitChangedFileMetadataReady}

/-- Two traces of one result, the second behind the first. -/
structure Agreeing (host : Host) (one two : Trace) (start finish resumed last : Session)
    (result : GitChangedFileMetadataReady) : Prop where
  left : one.Describes host start finish result
  right : two.Describes host resumed last result
  between : finish.instant ≤ resumed.instant

variable (agree : Agreeing host one two start finish resumed last result)
  (assumed : Assumed host tree) (never : NeverReturns host.history)
  {instant : Nat} {path : RelativePath}

include agree

theorem Agreeing.order : one.reading.interval.2 ≤ one.lastHead ∧
    one.lastHead < one.lastInterval.1 ∧ one.lastInterval.1 < one.lastInterval.2 ∧
    one.lastInterval.2 ≤ finish.instant ∧ finish.instant ≤ resumed.instant ∧
    resumed.instant ≤ two.diffInstant ∧
    two.diffInstant < two.diffReading.interval.1 ∧
    two.diffReading.interval.1 < two.diffReading.interval.2 ∧
    two.diffReading.interval.2 ≤ two.indexInstant ∧ two.indexInstant < two.reading.interval.1 ∧
    two.reading.interval.1 < two.reading.interval.2 ∧ two.reading.interval.2 ≤ two.lastHead :=
  ⟨agree.left.ordered.head, agree.left.ordered.last.1, agree.left.ordered.last.2,
    agree.left.ordered.finish, agree.between, agree.right.ordered.listing, agree.right.diff.order,
    agree.right.diff.worktree.order, agree.right.ordered.index, agree.right.ordered.reading,
    agree.right.worktree.order, agree.right.ordered.head⟩

include assumed

theorem Agreeing.state_eq : one.reading.snapshot.state = two.reading.snapshot.state := by
  apply assumed.states ⟨_, agree.left.worktree, rfl⟩ ⟨_, agree.right.worktree, rfl⟩
  rw [← agree.left.worktreeState, ← agree.right.worktreeState]

theorem Agreeing.bytes_eq :
    one.reading.snapshot.index.bytes = two.reading.snapshot.index.bytes := by
  have left := agree.left.worktree
  have right := agree.right.worktree
  have states := agree.state_eq assumed
  rw [left.state, right.state] at states
  have digests := (stateOf_injective (left.index.digest ▸ isHex_sha256Hex _)
    (right.index.digest ▸ isHex_sha256Hex _) left.printable right.printable states).1
  rw [left.index.digest, right.index.digest] at digests
  exact assumed.indexes ⟨_, left.index.bytes.symm⟩ ⟨_, right.index.bytes.symm⟩ digests

include never

/-- The index is the same from the one reading of the worktree to the other. -/
theorem Agreeing.index_eq (after : one.reading.interval.1 ≤ instant)
    (before : instant ≤ two.reading.interval.1) :
    (host.history instant).index = one.reading.snapshot.index.bytes := by
  have same := never.index one.reading.snapshot.index.bytes _ instant _ after before
    (congrArg some agree.left.worktree.index.bytes.symm)
    (congrArg some ((agree.bytes_eq assumed).trans agree.right.worktree.index.bytes).symm)
  exact Option.some.inj same

theorem Agreeing.parsed_eq {snapshot : IndexSnapshot} (indexAt : IndexAt host instant snapshot)
    (after : one.reading.interval.1 ≤ instant) (before : instant ≤ two.reading.interval.1) :
    snapshot.parsed = one.reading.snapshot.index.parsed :=
  indexAt.parsed_eq agree.left.worktree.index
    (indexAt.bytes.trans (agree.index_eq assumed never after before))

theorem Agreeing.file_eq {entry : ParsedGitIndexEntry}
    (member : entry ∈ one.reading.snapshot.index.parsed.entries) :
    ∃ content, ∀ instant, one.reading.interval.2 ≤ instant → instant ≤ two.reading.interval.1 →
      (host.history instant).file entry.path = some content := by
  have order := agree.order
  have firstOrder := agree.left.worktree.order
  have parsed := agree.parsed_eq assumed never agree.right.worktree.index (by omega) le_rfl
  have inSecond : entry ∈ two.reading.snapshot.index.parsed.entries := by rwa [parsed]
  rcases agree.left.worktree.file_of_entry member with ⟨first, inFirst, rfl⟩
  rcases agree.right.worktree.file_of_entry inSecond with ⟨second, inFiles, same⟩
  have objectId := agree.left.worktree.objectId_eq agree.right.worktree (agree.state_eq assumed)
    inFirst inFiles same.symm
  have formats : two.reading.format = one.reading.format :=
    congrArg ParsedGitIndex.objectFormat parsed
  have readFirst := agree.left.worktree.files.content first inFirst
  have readSecond := agree.right.worktree.files.content second inFiles
  unfold FileReading.objectId at objectId
  rw [formats] at objectId
  have content := assumed.blobs _ (.inl ⟨_, _, readFirst.2.2⟩) (.inl ⟨_, _, readSecond.2.2⟩) objectId
  refine ⟨first.content, fun instant after before => ?_⟩
  apply never.files first.entry.path first.content first.instant instant second.instant
  · omega
  · omega
  · exact readFirst.2.2
  · rw [← same, content]
    exact readSecond.2.2

/-- HEAD is the same from the end of the one collection to the end of the other. -/
theorem Agreeing.head_eq (after : one.lastHead ≤ instant) (before : instant ≤ two.lastHead) :
    (host.history instant).references headName = some result.headCommit := by
  rcases agree.left.lastHead with ⟨first, found, _, isFirst⟩
  rcases agree.right.lastHead with ⟨second, foundLast, _, isSecond⟩
  rw [assumed.head _ _ _ found isFirst] at found
  rw [assumed.head _ _ _ foundLast isSecond] at foundLast
  exact never.references headName _ _ instant _ after before found foundLast

theorem Agreeing.trackedPaths_eq :
    result.trackedPaths = one.reading.snapshot.index.parsed.paths := by
  have order := agree.order
  have firstOrder := agree.left.worktree.order
  rw [agree.right.trackedPaths, agree.parsed_eq assumed never agree.right.index (by omega)
    (by omega)]

theorem Agreeing.mem_trackedPaths (tracked : path ∈ result.trackedPaths) :
    ∃ entry ∈ one.reading.snapshot.index.parsed.entries, entry.path = path := by
  rw [agree.trackedPaths_eq assumed never] at tracked
  exact (agree.left.worktree.index.merged.tracked path).mp tracked

theorem Agreeing.mem_changes (tracked : path ∈ result.trackedPaths) {content : List UInt8} (after : finish.instant ≤ instant)
    (before : instant ≤ resumed.instant) (found : (host.history instant).file path = some content)
    (differs : tree result.mergeBase path ≠ some content) : path ∈ result.changes.map (·.path) := by
  have order := agree.order
  have firstOrder := agree.left.worktree.order
  have diff := agree.right.diff
  rcases agree.mem_trackedPaths assumed never tracked with ⟨entry, member, rfl⟩
  rcases agree.file_eq assumed never member with ⟨same, constant⟩
  cases (constant instant (by omega) (by omega)).symm.trans found
  have parsed := agree.parsed_eq assumed never diff.worktree.index (by omega) (by omega)
  have listedIndex : (host.history two.diffInstant).index = one.reading.snapshot.index.bytes :=
    agree.index_eq assumed never (by omega) (by omega)
  have isParsed := agree.left.worktree.index.parsed
  rw [← listedIndex] at isParsed
  have merged := agree.left.worktree.index.merged
  rcases assumed.lists _ _ _ isParsed merged.stages diff.succeeded with
    ⟨listing, printable, printed, lists⟩
  have readMerged := diff.merged
  rw [printed] at readMerged
  have inDiff : entry ∈ two.diffReading.snapshot.index.parsed.entries := by rwa [parsed]
  have noNul : ∀ path ∈ two.diffReading.snapshot.modifiedPaths, (0 : UInt8) ∉ encode path := by
    intro path inModified
    rw [diff.worktree.modifiedPaths, Sorting.mem_sortBy] at inModified
    rcases List.mem_map.mp inModified with ⟨change, inChanges, rfl⟩
    exact (diff.worktree.printable change inChanges).plain
  have reads := GitMetadataExecutor.readsAll_of_parseDiff printable noNul readMerged
    agree.right.changes
  have noMark := assumed.decoded _ _ isParsed entry.path
    ((merged.tracked entry.path).mpr ⟨entry, member, rfl⟩)
  have ok := merged.wellFormed entry member
  rcases diff.worktree.file_of_entry inDiff with ⟨file, inFiles, rfl⟩
  have read := diff.worktree.files.content file inFiles
  have contentEq : file.content = content :=
    Option.some.inj (read.2.2.symm.trans (constant file.instant (by omega) (by omega)))
  by_cases modified : file.objectId two.diffReading.format = file.entry.objectId
  · -- the index has the content, and the listing compares the index
    have other : (tree result.mergeBase file.entry.path).map
        (gitBlobObjectId one.reading.snapshot.index.parsed.objectFormat) ≠
          some file.entry.objectId := by
      intro listed
      rcases Option.map_eq_some_iff.mp listed with ⟨base, inTree, objectId⟩
      apply differs
      rw [inTree, ← contentEq]
      apply congrArg some
      apply assumed.blobs _ (.inr ⟨_, _, inTree⟩) (.inl ⟨_, _, read.2.2⟩)
      rw [objectId, ← modified, ← parsed]
      rfl
    rcases lists file.entry member other with ⟨listed, inListing, bytes⟩
    exact reads.listed listed inListing _ ok noMark bytes
  · -- the worktree differs from the index
    have change := mem_modified_iff.mpr ⟨file, inFiles, modified, rfl⟩
    have inModified : file.entry.path ∈ two.diffReading.snapshot.modifiedPaths := by
      rw [diff.worktree.modifiedPaths, Sorting.mem_sortBy]
      exact List.mem_map_of_mem change
    exact reads.modified _ inModified ok noMark

end Agreeing

/-! ## Reconciled metadata -/

/-- HEAD, the index, whose paths the result has, and every tracked file from one instant to
another. -/
structure OneState (host : Host) (result : GitChangedFileMetadataReady) (first last : Nat) :
    Prop where
  head : ∀ instant, first ≤ instant → instant ≤ last →
    (host.history instant).references headName = some result.headCommit
  index : ∃ bytes parsed, parsedIndex host.lowerCase bytes = some parsed ∧
    result.trackedPaths = parsed.paths ∧
    ∀ instant, first ≤ instant → instant ≤ last → (host.history instant).index = bytes
  files : ∀ path ∈ result.trackedPaths, ∃ content, ∀ instant, first ≤ instant → instant ≤ last →
    (host.history instant).file path = some content

/-- The changes have every tracked path whose content differs from the merge base. -/
def CoversScan (host : Host) (tree : Tree) (result : GitChangedFileMetadataReady)
    (first last : Nat) : Prop :=
  ∀ path ∈ result.trackedPaths, ∀ instant content, first ≤ instant → instant ≤ last →
    (host.history instant).file path = some content →
    tree result.mergeBase path ≠ some content → path ∈ result.changes.map (·.path)

theorem reconcile_eq_ready {σ : Type} {baseReference : Text}
    {before after : Except GitChangedFileFallbackReason (GitChangedFileMetadataReady × σ)}
    {result : GitChangedFileMetadataReady}
    (ready : reconcileGitChangedFileMetadata (metadataOf baseReference before)
      (metadataOf baseReference after) = .ready result) :
    ∃ finish last, before = .ok (result, finish) ∧ after = .ok (result, last) := by
  unfold reconcileGitChangedFileMetadata at ready
  split_ifs at ready with same
  have first : metadataOf baseReference before = .ready result := same.trans ready
  rcases before with reason | ⟨one, finish⟩
  · cases first
  · rcases after with reason | ⟨two, last⟩
    · cases ready
    · cases first
      cases ready
      exact ⟨finish, last, rfl, rfl⟩

/-- Metadata that is ready describes one repository state: from the last reading of the worktree
in front of the scan to the first one behind it HEAD, the index and every tracked file are the
same, and what the scan reads of a tracked file is the content of the merge base or its path is
among the changes. -/
theorem reconciled_describes_one_state (assumed : Assumed host tree)
    (never : NeverReturns host.history) {baseReference : Text} {start resumed : Session}
    {result : GitChangedFileMetadataReady} (fresh : start.pendingFinalSnapshot = none)
    (scanned : ∀ before finish, collect host baseReference start = .ok (before, finish) →
      Later finish resumed)
    (ready : reconcileGitChangedFileMetadata
      (metadataOf baseReference (collect host baseReference start))
      (metadataOf baseReference (collect host baseReference resumed)) = .ready result) :
    ∃ finish last lastReading firstReading,
      collect host baseReference start = .ok (result, finish) ∧
      collect host baseReference resumed = .ok (result, last) ∧
      finish.readings.getLast? = some lastReading ∧
      last.readings[resumed.readings.length]? = some firstReading ∧
      OneState host result lastReading.1 firstReading.2 ∧
      CoversScan host tree result finish.instant resumed.instant ∧
      shaLines (host.git.mergeBases result.baseCommit result.headCommit).stdout =
        some [result.mergeBase] := by
  rcases reconcile_eq_ready ready with ⟨finish, last, before, after⟩
  have later := scanned result finish before
  rcases collect_run fresh before with ⟨one, left⟩
  rcases collect_run (later.pending.trans left.pending) after with ⟨two, right⟩
  have agree : Agreeing host one two start finish resumed last result := ⟨left, right, later.order⟩
  have order := agree.order
  have firstOrder := left.worktree.order
  refine ⟨finish, last, one.lastInterval, two.diffReading.interval, before, after, ?_, ?_, ?_, ?_,
    right.mergeBase⟩
  · rw [left.readings]
    simp
  · rw [right.readings]
    simp
  · constructor
    · intro instant behind inFront
      exact agree.head_eq assumed never (by omega) (by omega)
    · refine ⟨one.reading.snapshot.index.bytes, _, left.worktree.index.parsed,
        agree.trackedPaths_eq assumed never, fun instant behind inFront => ?_⟩
      exact agree.index_eq assumed never (by omega) (by omega)
    · intro path tracked
      rcases agree.mem_trackedPaths assumed never tracked with ⟨entry, member, rfl⟩
      rcases agree.file_eq assumed never member with ⟨content, constant⟩
      exact ⟨content, fun instant behind inFront => constant instant (by omega) (by omega)⟩
  · intro path tracked instant content behind inFront found differs
    exact agree.mem_changes assumed never tracked behind inFront found differs

/-! ## A repository at rest -/

/-- An index of the file `a`. -/
def restingIndex : List UInt8 :=
  let content := [0x44, 0x49, 0x52, 0x43] ++ ByteFields.be32 2 ++ ByteFields.be32 1 ++
    TrackedFileEnumeration.plainEntry [0x61]
  content ++ TrackedFileEnumeration.checksum .sha1 content

def restingParsed : ParsedGitIndex where
  entries := [{
    ctimeNanoseconds := js "0000000000"
    device := js "0"
    inode := js "0"
    mode := 0o100644
    mtimeNanoseconds := js "0000000000"
    objectId := List.replicate 40 0x30
    path := js "a"
    size := 0
    stage := 0 }]
  objectFormat := .sha1
  paths := [js "a"]
  version := 2

def restingCommit : Text := List.replicate 40 0x61

def restingWorld : World where
  references := fun name => if name = headName ∨ name = js "main" then some restingCommit else none
  index := restingIndex
  file := fun path => if path = js "a" then some [0x61] else none

/-- The file `a` is not in the merge base, and the worktree has another content than the index. -/
def restingHost : Host where
  git := {
    peel := fun object => ⟨0, encode (object ++ [0x0a])⟩
    mergeBases := fun _ _ => ⟨0, encode (restingCommit ++ [0x0a])⟩
    diffIndex := fun _ _ => ⟨0, rawStatus [(.added, encode (js "a"))]⟩ }
  history := fun _ => restingWorld
  refuses := fun _ => none
  lowerCase := asciiLowerCase
  objectFormat := .sha1
  maximumOutputBytes := 1024

def restingReady : GitChangedFileMetadataReady where
  baseCommit := restingCommit
  baseReference := js "main"
  changes := [⟨js "a", none, .added⟩]
  headCommit := restingCommit
  indexObjectFormat := .sha1
  indexStateSha256 := Sha256.sha256Hex restingIndex
  indexVersion := 2
  mergeBase := restingCommit
  trackedPaths := [js "a"]
  worktreeStateSha256 := Sha256.sha256Hex (worktreeAtRest restingWorld restingParsed).state

theorem restingIndex_read : parsedIndex asciiLowerCase restingIndex = some restingParsed := by
  decide +kernel

theorem undisturbed_restingHost : Undisturbed restingHost restingWorld :=
  ⟨fun _ => rfl, fun _ => rfl⟩

theorem readable_restingHost : Readable restingHost restingWorld restingParsed where
  index := by decide +kernel
  read := restingIndex_read
  regular := by decide
  files := List.forall_mem_singleton.mpr ⟨[0x61], rfl, by decide⟩
  state := by decide +kernel

theorem collectable_restingHost :
    Collectable restingHost restingWorld restingParsed restingReady where
  baseReference := by decide +kernel
  head := ⟨restingCommit, by decide, rfl, rfl, by decide +kernel⟩
  base := ⟨restingCommit, by decide, rfl, rfl, by decide +kernel⟩
  merges := rfl
  mergeBase := by decide +kernel
  lengths := by decide
  lists := rfl
  changes := ⟨rawStatus [(.added, encode (js "a"))], by decide +kernel⟩
  index := ⟨rfl, rfl, rfl, rfl⟩
  worktree := rfl

theorem assumed_restingHost : Assumed restingHost fun _ _ => none where
  head := by
    intro _ reference commit found peeled
    cases found
    have same : oneSha (encode (restingCommit ++ [0x0a])) = some restingCommit := by
      decide +kernel
    exact Option.some.inj (same.symm.trans peeled)
  lists := by
    intro _ _ parsed read _ _
    cases restingIndex_read.symm.trans read
    refine ⟨[(.added, encode (js "a"))], List.forall_mem_singleton.mpr (by decide), rfl, ?_⟩
    exact List.forall_mem_singleton.mpr fun _ => ⟨_, List.mem_singleton_self _, rfl⟩
  indexes := by
    rintro _ ⟨_, rfl⟩ _ ⟨_, rfl⟩ _
    rfl
  states := by
    rintro _ ⟨one, first, rfl⟩ _ ⟨two, second, rfl⟩ _
    rw [first.state_atRest undisturbed_restingHost readable_restingHost,
      second.state_atRest undisturbed_restingHost readable_restingHost]
  blobs := by
    have only : ∀ content ∈ fileContents restingHost fun _ _ => none, content = [0x61] := by
      intro content member
      rcases member with ⟨_, path, found⟩ | ⟨_, _, none⟩
      · change (if path = js "a" then some [0x61] else none) = some content at found
        split_ifs at found
        exact (Option.some.inj found).symm
      · cases none
    intro _ one first two second _
    rw [only one first, only two second]
  decoded := by
    intro _ parsed read
    cases restingIndex_read.symm.trans read
    exact List.forall_mem_singleton.mpr (by decide)

/-- In a repository at rest both collections agree. -/
theorem reconciled_describes_one_state_atRest :
    ∃ finish lastReading firstReading,
      OneState restingHost restingReady lastReading firstReading ∧
      CoversScan restingHost (fun _ _ => none) restingReady finish finish := by
  rcases collect_atRest ⟨0, none, []⟩ undisturbed_restingHost readable_restingHost
    collectable_restingHost rfl with ⟨finish, before, cleared⟩
  rcases collect_atRest finish undisturbed_restingHost readable_restingHost
    collectable_restingHost cleared with ⟨last, after, _⟩
  have never : NeverReturns restingHost.history :=
    ⟨fun _ _ _ _ _ _ _ first _ => first, fun _ _ _ _ _ _ first _ => first,
      fun _ _ _ _ _ _ _ first _ => first⟩
  have ready : reconcileGitChangedFileMetadata
      (metadataOf (js "main") (collect restingHost (js "main") ⟨0, none, []⟩))
      (metadataOf (js "main") (collect restingHost (js "main") finish)) = .ready restingReady := by
    rw [show collect restingHost (js "main") ⟨0, none, []⟩ = .ok (restingReady, finish) from before,
      show collect restingHost (js "main") finish = .ok (restingReady, last) from after]
    exact if_pos rfl
  have scanned : ∀ ready other, collect restingHost (js "main") ⟨0, none, []⟩ = .ok (ready, other) →
      Later other finish := by
    intro ready other ran
    cases Except.ok.inj (before.symm.trans ran)
    exact later_rfl _
  rcases reconciled_describes_one_state assumed_restingHost never rfl scanned ready with
    ⟨_, _, lastReading, firstReading, same, _, _, _, state, covers, _⟩
  cases Except.ok.inj (before.symm.trans same)
  exact ⟨_, _, _, state, covers⟩

end AgentContextLint.GitObservation
