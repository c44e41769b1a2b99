import AgentContextLint.Cli.CollectionTrace

/-!
# A collection that nobody disturbs

If no other process changes anything and the executor refuses nothing, then a collection completes,
with the same metadata whenever it starts.
-/

namespace AgentContextLint.GitObservation

open Utf16 Utf8 StatefulRuns

open GitMetadataCollection

/-! ## Rest -/

def modifiedAtRest (world : World) (parsed : ParsedGitIndex) : List Modified :=
  parsed.entries.flatMap fun entry => (isModified entry
    (gitBlobObjectId parsed.objectFormat ((world.file entry.path).getD []))).toList

def indexAtRest (world : World) (parsed : ParsedGitIndex) : IndexSnapshot :=
  ⟨world.index, Sha256.sha256Hex world.index, parsed⟩

def worktreeAtRest (world : World) (parsed : ParsedGitIndex) : WorktreeSnapshot where
  index := indexAtRest world parsed
  modifiedPaths := Sorting.sortBy byteCompare ((modifiedAtRest world parsed).map (·.path))
  state := stateOf (Sha256.sha256Hex world.index) (modifiedAtRest world parsed)

/-- The world does not change, and nothing is refused. -/
structure Undisturbed (host : Host) (world : World) : Prop where
  history : ∀ instant, host.history instant = world
  refuses : ∀ instant, host.refuses instant = none

/-- An index of regular files that are all there. -/
structure Readable (host : Host) (world : World) (parsed : ParsedGitIndex) : Prop where
  index : 1 ≤ world.index.length ∧ world.index.length ≤ maximumCommandOutputBytes ∧
    world.index.length ≤ host.maximumOutputBytes
  read : parsedIndex host.lowerCase world.index = some parsed
  regular : ∀ entry ∈ parsed.entries,
    entry.stage = 0 ∧ (entry.mode = 0o100644 ∨ entry.mode = 0o100755)
  files : ∀ entry ∈ parsed.entries, ∃ bytes, world.file entry.path = some bytes ∧
    bytes.length ≤ maximumRawFileBytes
  state : (worktreeAtRest world parsed).state.length ≤ maximumCommandOutputBytes ∧
    (worktreeAtRest world parsed).state.length ≤ host.maximumOutputBytes

variable {host : Host} {world : World} {parsed : ParsedGitIndex} (start : Session)
  {requested object commit : Text}

theorem observe_atRest (rest : Undisturbed host world) {α : Type} (read : World → α) :
    observe host read start = .ok (read world, start.next) := by
  unfold observe
  rw [rest.refuses, rest.history]

theorem Readable.unmerged (readable : Readable host world parsed) :
    ¬ ∃ entry ∈ parsed.entries, entry.stage ≠ 0 := by
  intro ⟨entry, member, stage⟩
  exact stage (readable.regular entry member).1

section

variable (rest : Undisturbed host world)

include rest

theorem readStableIndex_atRest (readable : Readable host world parsed) :
    readStableIndex host start = .ok (indexAtRest world parsed, start.next) := by
  apply run_bind.mpr ⟨_, _, observe_atRest _ rest _, _⟩
  apply run_stopIf_bind.mpr ⟨by have := readable.index; omega, _⟩
  apply run_bind.mpr ⟨_, _, required_run.mpr ⟨readable.read, rfl⟩, _⟩
  exact run_stopIf_bind.mpr ⟨readable.unmerged, rfl⟩

theorem readEntries_atRest (format : GitObjectFormat) {entries : List ParsedGitIndexEntry}
    (regular : ∀ entry ∈ entries, entry.stage = 0 ∧ (entry.mode = 0o100644 ∨ entry.mode = 0o100755))
    (files : ∀ entry ∈ entries, ∃ bytes, world.file entry.path = some bytes ∧
      bytes.length ≤ maximumRawFileBytes) :
    ∃ finish, Later start finish ∧ readEntries host format entries start =
      .ok (entries.flatMap fun entry => (isModified entry
        (gitBlobObjectId format ((world.file entry.path).getD []))).toList, finish) := by
  induction entries generalizing start with
  | nil => exact ⟨start, later_rfl start, rfl⟩
  | cons entry entries ih =>
    rcases files entry List.mem_cons_self with ⟨bytes, found, short⟩
    have mode := regular entry List.mem_cons_self
    rcases ih start.next (fun entry member => regular entry (List.mem_cons_of_mem _ member))
      (fun entry member => files entry (List.mem_cons_of_mem _ member)) with
      ⟨finish, later, ran⟩
    refine ⟨finish, (later_next start).trans later, ?_⟩
    apply run_stopIf_bind.mpr ⟨by have := mode.1; have := mode.2; tauto, _⟩
    apply run_bind.mpr ⟨_, _, observe_atRest _ rest _, _⟩
    apply run_bind.mpr ⟨_, _, required_run.mpr ⟨found, rfl⟩, _⟩
    apply run_stopIf_bind.mpr ⟨by omega, _⟩
    apply run_bind.mpr ⟨_, _, ran, _⟩
    rw [List.flatMap_cons, found]
    rfl

theorem readWorktreeSnapshot_atRest (readable : Readable host world parsed) :
    ∃ finish, readWorktreeSnapshot host start = .ok (worktreeAtRest world parsed, finish) ∧
      finish.pendingFinalSnapshot = start.pendingFinalSnapshot := by
  rcases readEntries_atRest start.next rest parsed.objectFormat readable.regular
    readable.files with ⟨between, later, ran⟩
  refine ⟨_, run_bind.mpr ⟨start, start, rfl, run_bind.mpr ⟨_, _, readStableIndex_atRest _ rest readable,
    run_bind.mpr ⟨_, _, ran, run_bind.mpr ⟨_, _, readStableIndex_atRest _ rest readable,
      run_stopIf_bind.mpr ⟨fun differs => differs rfl, run_stopIf_bind.mpr ⟨?_,
        run_bind.mpr ⟨(), _, rfl, rfl⟩⟩⟩⟩⟩⟩⟩, later.pending⟩
  exact Nat.not_lt.mpr readable.state.1

theorem WorktreeAt.state_atRest (readable : Readable host world parsed) {reading : WorktreeReading}
    (worktree : WorktreeAt host reading) :
    reading.snapshot.state = (worktreeAtRest world parsed).state := by
  have bytes : reading.snapshot.index.bytes = world.index := by
    rw [worktree.index.bytes, rest.history]
  have isParsed : reading.snapshot.index.parsed = parsed := by
    have found := worktree.index.parsed
    rw [bytes, readable.read] at found
    exact (Option.some.inj found).symm
  have modified : reading.modified = modifiedAtRest world parsed := by
    unfold modifiedAtRest WorktreeReading.modified WorktreeReading.format
    rw [← isParsed, ← worktree.files.entries, List.flatMap_map]
    apply List.flatMap_congr
    intro file member
    have content := (worktree.files.content file member).2.2
    rw [rest.history] at content
    rw [content]
    rfl
  rw [worktree.state, worktree.index.digest, bytes, modified]
  rfl

end

/-! ## Requests -/

/-- A reference that is no object id is found, and its object is peeled. -/
structure Resolves (host : Host) (world : World) (requested object commit : Text) : Prop where
  named : ¬ (requested.length = shaLength host.objectFormat ∧
    requested.all Sha256.isHexDigit = true)
  found : world.references requested = some object
  succeeded : (host.git.peel object).exitCode = 0
  commit : oneSha (host.git.peel object).stdout = some commit

section

variable (rest : Undisturbed host world)

include rest

theorem Resolves.resolveReference_run (resolves : Resolves host world requested object commit) : resolveReference host requested start = .ok (object, start.next) := by
  unfold resolveReference
  rw [if_neg resolves.named]
  exact run_bind.mpr ⟨_, _, observe_atRest _ rest _, required_run.mpr ⟨resolves.found, rfl⟩⟩

theorem resolve_atRest (readable : Readable host world parsed) (resolves : Resolves host world requested object commit)
    {snapshot : Option WorktreeSnapshot}
    (own : ∀ taken ∈ snapshot, taken = worktreeAtRest world parsed) :
    ∃ finish, resolve host requested snapshot start = .ok (host.git.peel object, finish) ∧
      finish.pendingFinalSnapshot = start.pendingFinalSnapshot := by
  have resolved := fun start => resolves.resolveReference_run start rest
  have postflown : ∃ finish, postflight host snapshot start.next = .ok ((), finish) ∧
      finish.pendingFinalSnapshot = start.pendingFinalSnapshot := by
    cases snapshot with
    | none => exact ⟨start.next, rfl, rfl⟩
    | some taken =>
      rcases own taken rfl with rfl
      rcases readWorktreeSnapshot_atRest start.next rest readable with
        ⟨finish, ran, pending⟩
      refine ⟨finish, run_bind.mpr ⟨_, _, ran, ?_⟩, pending⟩
      exact if_neg (not_or.mpr ⟨fun differs => differs rfl, fun differs => differs rfl⟩)
  rcases postflown with ⟨finish, flown, pending⟩
  refine ⟨finish.next, run_bind.mpr ⟨_, _, resolved start, ?_⟩, pending⟩
  rw [if_neg (not_not.mpr resolves.succeeded)]
  exact run_bind.mpr ⟨_, _, flown, run_bind.mpr ⟨_, _, resolved finish,
    run_stopIf_bind.mpr ⟨fun differs => differs rfl, rfl⟩⟩⟩

theorem resolveHead_atRest (readable : Readable host world parsed)
    {object commit : Text} (resolves : Resolves host world headName object commit)
    (own : ∀ taken ∈ start.pendingFinalSnapshot, taken = worktreeAtRest world parsed) :
    ∃ finish, executor host .resolveHead start = .ok (host.git.peel object, finish) ∧
      finish.pendingFinalSnapshot = none := by
  rcases resolve_atRest { start with pendingFinalSnapshot := none } rest readable
    resolves own with ⟨finish, ran, pending⟩
  exact ⟨finish, run_bind.mpr ⟨start, start, rfl, run_bind.mpr ⟨(), _, rfl, ran⟩⟩, pending⟩

theorem indexState_atRest (readable : Readable host world parsed) :
    ∃ finish, executor host .indexState start = .ok (⟨0, world.index⟩, finish) :=
  ⟨_, run_bind.mpr ⟨(), _, rfl, run_bind.mpr ⟨_, _, readStableIndex_atRest _ rest readable,
    run_stopIf_bind.mpr ⟨Nat.not_lt.mpr readable.index.2.2, rfl⟩⟩⟩⟩

theorem worktreeState_atRest (readable : Readable host world parsed) :
    ∃ finish, executor host .worktreeState start =
      .ok (⟨0, (worktreeAtRest world parsed).state⟩, finish) ∧
      finish.pendingFinalSnapshot = some (worktreeAtRest world parsed) := by
  rcases readWorktreeSnapshot_atRest start rest readable with ⟨finish, ran, _⟩
  exact ⟨_, run_bind.mpr ⟨_, _, ran, run_stopIf_bind.mpr ⟨Nat.not_lt.mpr readable.state.2,
    run_bind.mpr ⟨(), _, rfl, rfl⟩⟩⟩, rfl⟩

theorem diff_atRest (readable : Readable host world parsed) {mergeBase : Text} {output : List UInt8}
    (succeeded : (host.git.diffIndex mergeBase world.index).exitCode = 0)
    (merged : GitMetadataExecutor.mergeWorktreeChanges
      (host.git.diffIndex mergeBase world.index).stdout
      (worktreeAtRest world parsed).modifiedPaths host.maximumOutputBytes = .ok output) :
    ∃ finish, executor host (.diff mergeBase) start = .ok (⟨0, output⟩, finish) := by
  have indexed := fun start => readStableIndex_atRest start rest readable
  rcases readWorktreeSnapshot_atRest
    ({ start with pendingFinalSnapshot := none } : Session).next.next.next rest readable with ⟨finish, ran, _⟩
  refine ⟨finish, run_bind.mpr ⟨(), _, rfl, run_bind.mpr ⟨_, _, indexed _, run_bind.mpr
    ⟨_, _, observe_atRest _ rest _, ?_⟩⟩⟩⟩
  rw [if_neg (not_not.mpr succeeded)]
  refine run_bind.mpr ⟨_, _, indexed _, run_stopIf_bind.mpr ⟨fun differs => differs rfl,
    run_bind.mpr ⟨_, _, ran, run_stopIf_bind.mpr ⟨fun differs => differs rfl, ?_⟩⟩⟩⟩
  rw [merged]
  rfl

end

/-! ## The collection -/

/-- What Git has to say for the metadata to be ready. -/
structure Collectable (host : Host) (world : World) (parsed : ParsedGitIndex)
    (ready : GitChangedFileMetadataReady) : Prop where
  baseReference : isValidGitBaseReference ready.baseReference
  head : ∃ object, Resolves host world headName object ready.headCommit
  base : ∃ object, Resolves host world ready.baseReference object ready.baseCommit
  merges : (host.git.mergeBases ready.baseCommit ready.headCommit).exitCode = 0
  mergeBase : shaLines (host.git.mergeBases ready.baseCommit ready.headCommit).stdout =
    some [ready.mergeBase]
  lengths : ready.baseCommit.length = ready.headCommit.length ∧
    ready.mergeBase.length = ready.headCommit.length ∧
    shaLength parsed.objectFormat = ready.headCommit.length
  lists : (host.git.diffIndex ready.mergeBase world.index).exitCode = 0
  changes : ∃ output, GitMetadataExecutor.mergeWorktreeChanges
    (host.git.diffIndex ready.mergeBase world.index).stdout
    (worktreeAtRest world parsed).modifiedPaths host.maximumOutputBytes = .ok output ∧
      ChangedFileMetadata.parseDiff output = .ok ready.changes
  index : ready.indexObjectFormat = parsed.objectFormat ∧ ready.indexVersion = parsed.version ∧
    ready.trackedPaths = parsed.paths ∧ ready.indexStateSha256 = Sha256.sha256Hex world.index
  worktree : ready.worktreeStateSha256 = Sha256.sha256Hex (worktreeAtRest world parsed).state

theorem execute_atRest {start : Session} {request : GitMetadataRequest} {response : GitMetadataResponse}
    {finish last : Session} {α : Type} {a : α} {f : List UInt8 → Operation α}
    (answers : executor host request start = .ok (response, finish))
    (succeeded : response.exitCode = 0) (rest : f response.stdout finish = .ok (a, last)) :
    (execute (executor host) request >>= f) start = .ok (a, last) :=
  run_bind.mpr ⟨_, _, run_bind.mpr ⟨_, _, answers, run_stopIf_bind.mpr
    ⟨not_not.mpr succeeded, rfl⟩⟩, rest⟩

/-- Nobody disturbs the collection, and it completes. -/
theorem collect_atRest (rest : Undisturbed host world) (readable : Readable host world parsed)
    {ready : GitChangedFileMetadataReady} (collectable : Collectable host world parsed ready)
    (fresh : start.pendingFinalSnapshot = none) :
    ∃ finish, collect host ready.baseReference start = .ok (ready, finish) ∧
      finish.pendingFinalSnapshot = none := by
  rcases collectable.head with ⟨head, headResolves⟩
  rcases collectable.base with ⟨base, baseResolves⟩
  rcases collectable.changes with ⟨output, merged, parses⟩
  rcases resolveHead_atRest start rest readable headResolves
    (by rw [fresh]; exact fun _ none => by cases none) with ⟨s₁, headed, _⟩
  rcases resolve_atRest s₁ rest readable baseResolves
    (fun _ (none : _ ∈ Option.none) => by cases none) with ⟨s₂, based, _⟩
  have baseRun : executor host (.resolveBase ready.baseReference) s₁ =
      .ok (host.git.peel base, s₂) := based
  have bases : executor host (.mergeBases ready.baseCommit ready.headCommit) s₂ =
      .ok (host.git.mergeBases ready.baseCommit ready.headCommit,
        { s₂ with pendingFinalSnapshot := none }) := rfl
  rcases diff_atRest { s₂ with pendingFinalSnapshot := none } rest readable
    collectable.lists merged with ⟨s₃, diffed⟩
  rcases indexState_atRest s₃ rest readable with ⟨s₄, indexed⟩
  rcases worktreeState_atRest s₄ rest readable with ⟨s₅, worktree, pending⟩
  rcases resolveHead_atRest s₅ rest readable headResolves
    (by rw [pending]; exact fun _ own => (Option.some.inj own).symm) with ⟨s₆, again, cleared⟩
  refine ⟨s₆, ?_, cleared⟩
  apply run_stopIf_bind.mpr ⟨not_not.mpr collectable.baseReference, _⟩
  apply execute_atRest headed headResolves.succeeded
  apply run_bind.mpr ⟨_, _, required_run.mpr ⟨headResolves.commit, rfl⟩, _⟩
  apply execute_atRest baseRun baseResolves.succeeded
  apply run_bind.mpr ⟨_, _, required_run.mpr ⟨baseResolves.commit, rfl⟩, _⟩
  apply execute_atRest bases collectable.merges
  apply run_bind.mpr ⟨_, _, required_run.mpr ⟨collectable.mergeBase, rfl⟩, _⟩
  apply run_bind.mpr ⟨ready.mergeBase, _, rfl, _⟩
  apply run_stopIf_bind.mpr ⟨not_or.mpr ⟨not_not.mpr collectable.lengths.1,
    not_not.mpr collectable.lengths.2.1⟩, _⟩
  apply execute_atRest diffed rfl
  rw [parses]
  apply run_bind.mpr ⟨ready.changes, _, rfl, _⟩
  apply execute_atRest indexed rfl
  apply run_bind.mpr ⟨_, _, required_run.mpr ⟨readable.read, rfl⟩, _⟩
  apply run_stopIf_bind.mpr ⟨not_or.mpr ⟨not_not.mpr collectable.lengths.2.2, readable.unmerged⟩, _⟩
  apply execute_atRest worktree rfl
  apply execute_atRest again headResolves.succeeded
  apply run_bind.mpr ⟨_, _, required_run.mpr ⟨headResolves.commit, rfl⟩, _⟩
  apply run_stopIf_bind.mpr ⟨fun differs => differs rfl, _⟩
  have index := collectable.index
  apply run_pure.mpr ⟨_, rfl⟩
  rw [← index.1, ← index.2.1, ← index.2.2.1, ← index.2.2.2, ← collectable.worktree]

end AgentContextLint.GitObservation
