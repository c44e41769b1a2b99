import AgentContextLint.Cli.ChangedPathRoundTrip
import AgentContextLint.Cli.GitObservation
import AgentContextLint.Evidence.GitIndexRoundTrip

/-!
# What a collection has observed

Every program of the executor is read as facts about instants: which value was read when. An
index snapshot is the index at one instant (`IndexAt`), a worktree snapshot holds one reading of
every entry (`WorktreeAt`), and a completed collection is a trace of both (`Collected`), in the
order of the requests.
-/

namespace AgentContextLint

open Utf16 Utf8 StatefulRuns

/-! ## The entries of an index -/

namespace TrackedFileEnumeration

variable {lowerCase : Text → Text} {limits : TrackedFileEnumerationLimits}

/-- Without unmerged entries every entry has a path of its own. -/
theorem paths_of_unmerged {index : Nat} {state final : IndexState} {reads : List EntryRead}
    (admitted : state.Admitted lowerCase limits index)
    (merged : 0 < index → state.previousStage = 0)
    (paths : state.entries.map (·.path) = state.paths)
    (ok : admitEntries lowerCase limits index state reads = .ok final)
    (unmerged : ∀ entry ∈ final.entries, entry.stage = 0) :
    final.entries.map (·.path) = final.paths := by
  induction reads generalizing index state with
  | nil =>
    cases ok
    exact paths
  | cons read reads ih =>
    rcases Metered.bind_eq_ok.mp ok with ⟨after, entry, rest⟩
    rcases admitEntry_eq_ok.mp entry with ⟨value, admissible, rfl⟩
    rcases entries_of_admitEntries rest with ⟨values, _, entries⟩
    have inside : entryOf read value ∈ final.entries := by
      rw [entries]
      exact List.mem_append_left _ (List.mem_append_right _ List.mem_cons_self)
    have stage : read.stage = 0 := unmerged _ inside
    have fresh : value ∉ state.paths := by
      intro seen
      have same := admitted.eq_previousRaw admissible seen
      exact admissible.alone same (merged (admitted.pos_of_mem seen))
    apply ih (admitted.accept admissible) _ _ rest
    · intro _
      exact congrArg Nat.cast stage
    · unfold IndexState.accept
      dsimp only
      rw [if_neg fresh, List.map_append, paths]
      rfl

/-- A parsed index without unmerged entries lists each path once. -/
structure Merged (parsed : ParsedGitIndex) : Prop where
  stages : ∀ entry ∈ parsed.entries, entry.stage = 0
  nodup : (parsed.entries.map (·.path)).Nodup
  tracked : ∀ path, path ∈ parsed.paths ↔ ∃ entry ∈ parsed.entries, entry.path = path
  wellFormed : ∀ entry ∈ parsed.entries, wellFormed entry.path = true
  plain : ∀ entry ∈ parsed.entries, (0 : UInt8) ∉ encode entry.path

variable {bytes : List UInt8} {parsed : ParsedGitIndex}

theorem merged_of_parseCandidate {format : GitObjectFormat}
    (accepted : parseCandidate lowerCase bytes format limits = .ok parsed)
    (unmerged : ∀ entry ∈ parsed.entries, entry.stage = 0) : Merged parsed := by
  rcases parseCandidate_eq_ok.mp accepted with ⟨version, count, reads, state, file, rfl⟩
  have initial := admitted_initialIndexState lowerCase limits
  have admitted := (admitted_of_admitEntries initial file.admitted).1
  have paths := paths_of_unmerged initial (fun later => absurd later (Nat.lt_irrefl 0)) rfl
    file.admitted unmerged
  have names : ∀ entry ∈ state.entries, PathName (encode entry.path) limits entry.path := by
    intro entry member
    apply admitted.names
    rw [← paths]
    exact List.mem_map_of_mem member
  refine ⟨unmerged, ?_, ?_, ?_, ?_⟩
  · dsimp only
    rw [paths]
    exact admitted.nodup
  · intro path
    rw [Sorting.mem_sortBy, ← paths, List.mem_map]
  · exact fun entry member => (names entry member).wellFormed
  · exact fun entry member => (names entry member).zero_notMem

theorem merged_of_parseGitIndex (accepted : parseGitIndex lowerCase bytes limits = .ok parsed)
    (unmerged : ∀ entry ∈ parsed.entries, entry.stage = 0) : Merged parsed := by
  unfold parseGitIndex at accepted
  split_ifs at accepted
  split at accepted
  · next candidate _ =>
      cases accepted
      exact merged_of_parseCandidate candidate unmerged
  · next _ candidate =>
      cases accepted
      exact merged_of_parseCandidate candidate unmerged
  · cases accepted
  · cases accepted

end TrackedFileEnumeration

namespace GitObservation

open GitMetadataCollection

variable {host : Host}
  {start finish : Session} {reason : GitChangedFileFallbackReason} (session : Session)

/-! ## Readings -/

/-- Only time has passed. -/
structure Later (start finish : Session) : Prop where
  same : finish = { start with instant := finish.instant }
  order : start.instant ≤ finish.instant

theorem later_rfl : Later session session := ⟨rfl, le_rfl⟩

theorem later_next : Later session session.next := ⟨rfl, Nat.le_succ _⟩

theorem Later.trans {first second third : Session} (one : Later first second)
    (two : Later second third) : Later first third where
  same := by
    rw [two.same, one.same]
  order := one.order.trans two.order

theorem Later.pending (later : Later start finish) :
    finish.pendingFinalSnapshot = start.pendingFinalSnapshot := by
  rw [later.same]

theorem Later.readings (later : Later start finish) : finish.readings = start.readings := by
  rw [later.same]

variable {α : Type}

theorem observe_run {read : World → α} {a : α} (ran : observe host read start = .ok (a, finish)) :
    a = read (host.history start.instant) ∧ finish = start.next := by
  unfold observe at ran
  split at ran
  · cases ran
  · cases ran
    exact ⟨rfl, rfl⟩

variable {σ : Type}

theorem required_run {found : Option α} {a : α} {start finish : σ} :
    required reason found start = .ok (a, finish) ↔ found = some a ∧ start = finish := by
  cases found with
  | none => exact ⟨nofun, fun none => by cases none.1⟩
  | some b => exact run_pure.trans (and_congr_left fun _ => Option.some_inj.symm)

variable {β : Type}

theorem required_bind_run {found : Option α}
    {f : α → StateT σ (Except GitChangedFileFallbackReason) β} {b : β} {start finish : σ}
    (ran : (required reason found >>= f) start = .ok (b, finish)) :
    ∃ a, found = some a ∧ f a start = .ok (b, finish) := by
  rcases run_bind.mp ran with ⟨a, between, first, rest⟩
  rcases required_run.mp first with ⟨some, rfl⟩
  exact ⟨a, some, rest⟩

theorem accepted_bind_run {found : Except GitChangedFileFallbackReason α}
    {f : α → StateT σ (Except GitChangedFileFallbackReason) β} {b : β} {start finish : σ}
    (ran : (accepted found >>= f) start = .ok (b, finish)) :
    ∃ a, found = .ok a ∧ f a start = .ok (b, finish) := by
  rcases run_bind.mp ran with ⟨a, between, first, rest⟩
  cases found with
  | error reason => cases first
  | ok c =>
    rcases run_pure.mp first with ⟨rfl, rfl⟩
    exact ⟨c, rfl, rest⟩

/-- The snapshot is the index at an instant. -/
structure IndexAt (host : Host) (instant : Nat) (snapshot : IndexSnapshot) : Prop where
  bytes : snapshot.bytes = (host.history instant).index
  digest : snapshot.digest = Sha256.sha256Hex snapshot.bytes
  parsed : parsedIndex host.lowerCase snapshot.bytes = some snapshot.parsed
  merged : TrackedFileEnumeration.Merged snapshot.parsed

theorem merged_of_parsedIndex {lowerCase : Text → Text} {bytes : List UInt8}
    {parsed : ParsedGitIndex} (accepted : parsedIndex lowerCase bytes = some parsed)
    (unmerged : ¬ ∃ entry ∈ parsed.entries, entry.stage ≠ 0) :
    TrackedFileEnumeration.Merged parsed := by
  unfold parsedIndex at accepted
  cases ran : TrackedFileEnumeration.parseGitIndex lowerCase bytes indexLimits with
  | error error =>
    rw [ran] at accepted
    cases accepted
  | ok other =>
    rw [ran] at accepted
    cases accepted
    apply TrackedFileEnumeration.merged_of_parseGitIndex ran
    intro entry member
    by_contra stage
    exact unmerged ⟨entry, member, stage⟩

theorem readStableIndex_run {snapshot : IndexSnapshot}
    (ran : readStableIndex host start = .ok (snapshot, finish)) :
    IndexAt host start.instant snapshot ∧ finish = start.next := by
  rcases run_bind.mp ran with ⟨bytes, between, observed, ran⟩
  rcases observe_run observed with ⟨rfl, rfl⟩
  rcases run_stopIf_bind.mp ran with ⟨_, ran⟩
  rcases required_bind_run ran with ⟨parsed, isParsed, ran⟩
  rcases run_stopIf_bind.mp ran with ⟨unmerged, ran⟩
  rcases run_pure.mp ran with ⟨rfl, rfl⟩
  exact ⟨⟨rfl, rfl, isParsed, merged_of_parsedIndex isParsed unmerged⟩, rfl⟩

/-- A file that was read for an entry. -/
structure FileReading where
  entry : ParsedGitIndexEntry
  instant : Nat
  content : List UInt8

def FileReading.modified (format : GitObjectFormat) (reading : FileReading) : List Modified :=
  (isModified reading.entry (gitBlobObjectId format reading.content)).toList

/-- The readings of the entries within an interval. -/
structure ReadAt (host : Host) (start finish : Nat) (entries : List ParsedGitIndexEntry)
    (readings : List FileReading) : Prop where
  entries : readings.map (·.entry) = entries
  content : ∀ reading ∈ readings, start ≤ reading.instant ∧ reading.instant < finish ∧
    (host.history reading.instant).file reading.entry.path = some reading.content

theorem readEntries_run {format : GitObjectFormat} {entries : List ParsedGitIndexEntry} {modified : List Modified}
    (ran : readEntries host format entries start = .ok (modified, finish)) :
    ∃ readings, ReadAt host start.instant finish.instant entries readings ∧
      modified = readings.flatMap (·.modified format) ∧ Later start finish := by
  induction entries generalizing start modified with
  | nil =>
    rcases run_pure.mp ran with ⟨rfl, rfl⟩
    exact ⟨[], ⟨rfl, List.forall_mem_nil _⟩, rfl, later_rfl start⟩
  | cons entry rest ih =>
    rcases run_stopIf_bind.mp ran with ⟨_, ran⟩
    rcases run_bind.mp ran with ⟨file, between, observed, ran⟩
    rcases observe_run observed with ⟨rfl, rfl⟩
    rcases required_bind_run ran with ⟨bytes, found, ran⟩
    rcases run_stopIf_bind.mp ran with ⟨_, ran⟩
    rcases run_bind.mp ran with ⟨later, after, rested, ran⟩
    rcases run_pure.mp ran with ⟨rfl, rfl⟩
    rcases ih rested with ⟨readings, readAt, rfl, later⟩
    have next : start.instant < after.instant := later.order
    refine ⟨⟨entry, start.instant, bytes⟩ :: readings, ⟨?_, ?_⟩, rfl,
      (later_next start).trans later⟩
    · rw [List.map_cons, readAt.entries]
    · intro reading member
      rcases List.mem_cons.mp member with rfl | inRest
      · exact ⟨le_rfl, next, found⟩
      · have content := readAt.content reading inRest
        exact ⟨Nat.le_of_succ_le content.1, content.2⟩

/-- A reading of the worktree within an interval. -/
structure WorktreeReading where
  interval : Nat × Nat
  snapshot : WorktreeSnapshot
  files : List FileReading

def WorktreeReading.format (reading : WorktreeReading) : GitObjectFormat :=
  reading.snapshot.index.parsed.objectFormat

def WorktreeReading.modified (reading : WorktreeReading) : List Modified :=
  reading.files.flatMap (·.modified reading.format)

structure WorktreeAt (host : Host) (reading : WorktreeReading) : Prop where
  order : reading.interval.1 < reading.interval.2
  index : IndexAt host reading.interval.1 reading.snapshot.index
  files : ReadAt host reading.interval.1 reading.interval.2 reading.snapshot.index.parsed.entries
    reading.files
  modifiedPaths : reading.snapshot.modifiedPaths =
    Sorting.sortBy byteCompare (reading.modified.map (·.path))
  state : reading.snapshot.state = stateOf reading.snapshot.index.digest reading.modified

theorem readWorktreeSnapshot_run {worktree : WorktreeSnapshot}
    (ran : readWorktreeSnapshot host start = .ok (worktree, finish)) :
    (∃ files, WorktreeAt host ⟨(start.instant, finish.instant), worktree, files⟩) ∧
      finish.pendingFinalSnapshot = start.pendingFinalSnapshot ∧
      finish.readings = start.readings ++ [(start.instant, finish.instant)] := by
  rcases run_bind.mp ran with ⟨_, _, got, ran⟩
  cases got
  rcases run_bind.mp ran with ⟨index, between, indexed, ran⟩
  rcases readStableIndex_run indexed with ⟨isIndex, rfl⟩
  rcases run_bind.mp ran with ⟨modified, after, read, ran⟩
  rcases readEntries_run read with ⟨files, readAt, rfl, later⟩
  rcases run_bind.mp ran with ⟨finalIndex, _, indexed, ran⟩
  rcases readStableIndex_run indexed with ⟨_, rfl⟩
  rcases run_stopIf_bind.mp ran with ⟨_, ran⟩
  rcases run_stopIf_bind.mp ran with ⟨_, ran⟩
  rcases run_bind.mp ran with ⟨_, _, logged, ran⟩
  cases logged
  rcases run_pure.mp ran with ⟨rfl, rfl⟩
  have next : start.instant < after.instant := later.order
  refine ⟨⟨files, ?_, isIndex, ⟨readAt.entries, ?_⟩, rfl, rfl⟩, later.pending, ?_⟩
  · exact next.trans (Nat.lt_succ_self _)
  · intro reading member
    have content := readAt.content reading member
    exact ⟨Nat.le_of_succ_le content.1, content.2.1.trans (Nat.lt_succ_self _), content.2.2⟩
  · exact congrArg (· ++ _) later.readings

end GitObservation

end AgentContextLint
