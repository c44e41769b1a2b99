import AgentContextLint.Evidence.GitIndexEncoding

/-!
# Encoded indexes are accepted

Where `Storable` says what a list of entries needs, every encoding of the list is accepted and
decodes to the list (`parseCandidate_of_storable`). What is accepted can be encoded again, in every
version, and decodes to the same entries (`parseCandidate_reencoded`).
-/

namespace AgentContextLint.TrackedFileEnumeration

open Utf16 RepositoryPath Metered List

variable {format : GitObjectFormat}

def StoredEntry.decoded (entry : StoredEntry format) : ParsedGitIndexEntry :=
  entryOf entry.read entry.path

section Limits

variable (limits : TrackedFileEnumerationLimits)

/-- A list of entries as Git stores it, within the limits. -/
structure GitEntries (entries : List (StoredEntry format)) : Prop where
  countable : entries.length < 0x100000000
  few : entries.length ≤ limits.maximumIndexEntries
  fewFiles : entries.length ≤ limits.maximumFiles
  canonical : ∀ entry ∈ entries, isRepositoryRelativePath entry.path = true ∧
    entry.path ≠ repositoryRoot
  short : ∀ entry ∈ entries, entry.name.length ≤ 16384
  depth : ∀ entry ∈ entries, (pathSegments entry.path).length ≤ limits.maximumDepth
  increasing : entries.Pairwise fun first second => first.name < second.name ∨
    first.name = second.name ∧ first.stage < second.stage
  noDirectory : ∀ entry ∈ entries, ∀ other ∈ entries, ¬ entry.path ++ [0x2f] <+: other.path

variable (lowerCase : Text → Text)

/-- What the reader asks for beyond this. -/
structure Storable (version : IndexVersion) (entries : List (StoredEntry format)) : Prop
    extends GitEntries limits entries where
  safe : ∀ entry ∈ entries, containsUnsafePathText entry.path = false
  noGit : ∀ entry ∈ entries, js ".git" ∉ pathSegments entry.path
  alone : entries.Pairwise fun first second => first.name = second.name → first.stage ≠ 0
  cased : ∀ entry ∈ entries, ∀ other ∈ entries, lowerCase entry.path = lowerCase other.path →
    entry.path = other.path
  present : ∀ entry ∈ entries, entry.skipWorktree = false
  supported : version = .v2 → ∀ entry ∈ entries, entry.intentToAdd = false

end Limits

variable {path : RelativePath} {limits : TrackedFileEnumerationLimits}

/-! ## Names of paths -/

theorem nil_notMem_pathSegments (canonical : isRepositoryRelativePath path = true)
    (notRoot : path ≠ repositoryRoot) : [] ∉ pathSegments path := by
  rw [isRepositoryRelativePath_eq_true] at canonical
  obtain ⟨accepted, own⟩ := canonicalize_eq_ok.mp canonical
  split_ifs at own with kept
  · exact absurd own notRoot
  · rw [own, pathSegments_joinSegments accepted.canonical kept]
    exact fun member => (accepted.canonical [] member).ne_nil rfl

theorem pathName_of_canonical (canonical : isRepositoryRelativePath path = true)
    (notRoot : path ≠ repositoryRoot) (safe : containsUnsafePathText path = false)
    (noGit : js ".git" ∉ pathSegments path) (short : (Utf8.encode path).length ≤ 16384)
    (depth : (pathSegments path).length ≤ limits.maximumDepth) :
    PathName (Utf8.encode path) limits path := by
  have noEmpty := nil_notMem_pathSegments canonical notRoot
  rw [isRepositoryRelativePath_eq_true] at canonical
  have accepted := (canonicalize_eq_ok.mp canonical).1
  exact {
    short := short
    decoded := Utf8.decode_encode accepted.unicode
    nonempty := by
      rintro rfl
      exact noEmpty (by decide)
    safe := safe
    noSlash := by
      intro last
      obtain ⟨front, rfl⟩ := getLast?_eq_some_iff.mp last
      rw [pathSegments_append front []] at noEmpty
      exact noEmpty (mem_append_right _ (by decide))
    noGit := noGit
    noBackslash := accepted.noBackslash rfl
    canonical := canonical
    notRoot := notRoot
    depth := depth }

theorem PathName.zero_notMem {raw : List UInt8} (name : PathName raw limits path) : 0 ∉ raw := by
  rw [← name.encode]
  refine Utf8.zero_notMem_encode fun member => ?_
  have control : containsUnsafePathText path = true := any_eq_true.mpr ⟨0, member, by decide⟩
  rw [name.safe] at control
  cases control

section Storable

variable {lowerCase : Text → Text} {limits : TrackedFileEnumerationLimits} {version : IndexVersion}
  {entries front back : List (StoredEntry format)} {state : IndexState} {entry : StoredEntry format}

theorem Storable.pathName (storable : Storable limits lowerCase version entries)
    (member : entry ∈ entries) : PathName entry.name limits entry.path :=
  pathName_of_canonical (storable.canonical entry member).1 (storable.canonical entry member).2
    (storable.safe entry member) (storable.noGit entry member) (storable.short entry member)
    (storable.depth entry member)

theorem Storable.readable (storable : Storable limits lowerCase version entries)
    (member : entry ∈ entries) : Readable version entry where
  supported second := by
    rw [StoredEntry.extended, storable.present entry member, storable.supported second entry member]
    rfl
  present := storable.present entry member
  plain := (storable.pathName member).zero_notMem
  short := storable.short entry member

/-! ## Storable entries are admitted -/

variable (lowerCase limits)

/-- The state behind the entries of `front`. -/
structure Reached (front : List (StoredEntry format)) (state : IndexState) : Prop where
  admitted : state.Admitted lowerCase limits front.length
  entries : state.entries = front.map StoredEntry.decoded
  paths : ∀ path, path ∈ state.paths ↔ ∃ entry ∈ front, entry.path = path
  lowered : ∀ folded path, state.lower.get? folded = some path →
    lowerCase path = folded ∧ path ∈ state.paths
  unique : ∀ path, state.previousUnique = some path → path ∈ state.paths
  initial : front = [] → state = initialIndexState
  last : ∀ entry, front.getLast? = some entry →
    state.previousRaw = entry.name ∧ state.previousStage = entry.stage.val

theorem reached_nil : Reached lowerCase limits ([] : List (StoredEntry format)) initialIndexState where
  admitted := admitted_initialIndexState lowerCase limits
  entries := rfl
  paths := by simp [initialIndexState]
  lowered := nofun
  unique := nofun
  initial _ := rfl
  last := nofun

variable {lowerCase limits}

section

variable (reached : Reached lowerCase limits front state)

include reached

/-- The next of storable entries is admissible. -/
theorem Reached.admissible (storable : Storable limits lowerCase version (front ++ entry :: back)) :
    Admissible lowerCase limits front.length state entry.read entry.path := by
  have own : entry ∈ front ++ entry :: back := by simp
  have inFront : ∀ other ∈ front, other ∈ front ++ entry :: back := fun _ member =>
    mem_append_left _ member
  have previous : 0 < front.length → ∃ last ∈ front, state.previousRaw = last.name ∧
      state.previousStage = last.stage.val := by
    intro later
    obtain ⟨last, isLast⟩ := Option.ne_none_iff_exists'.mp fun none : front.getLast? = none =>
      (length_pos_iff.mp later) (getLast?_eq_none_iff.mp none)
    exact ⟨last, mem_of_getLast? isLast, reached.last last isLast⟩
  have ordered := (pairwise_append.mp storable.increasing).2.2
  have alone := (pairwise_append.mp storable.alone).2.2
  refine ⟨storable.pathName own, fun later => ?_, fun same => ?_, fun _ other found => ?_,
    fun _ path found below => ?_⟩
  · obtain ⟨last, member, raw, stage⟩ := previous later
    rw [raw, stage]
    obtain less | ⟨same, less⟩ := ordered last member entry mem_cons_self
    · exact .inl less
    · exact .inr ⟨same, by simpa [StoredEntry.read] using less⟩
  · by_cases first : front = []
    · rw [reached.initial first] at same
      exact absurd same.symm (storable.pathName own).ne_nil
    · obtain ⟨last, member, raw, stage⟩ := previous (length_pos_iff.mpr first)
      have nonzero := alone last member entry mem_cons_self (raw ▸ same)
      rw [stage]
      exact fun zero => nonzero (Fin.ext (Int.ofNat.inj zero))
  · obtain ⟨folded, member⟩ := reached.lowered _ _ found
    obtain ⟨last, inLast, rfl⟩ := (reached.paths _).mp member
    exact storable.cased last (inFront last inLast) entry own folded
  · obtain ⟨last, inLast, rfl⟩ := (reached.paths _).mp (reached.unique path found)
    exact storable.noDirectory last (inFront last inLast) entry own below

theorem Reached.accept
    (admissible : Admissible lowerCase limits front.length state entry.read entry.path) :
    Reached lowerCase limits (front ++ [entry]) (state.accept lowerCase entry.read entry.path) := by
  have paths : ∀ path, path ∈ (state.accept lowerCase entry.read entry.path).paths ↔
      path ∈ state.paths ∨ path = entry.path := by
    intro path
    unfold IndexState.accept
    dsimp only
    split_ifs with seen
    · exact (or_iff_left_of_imp fun same => same ▸ seen).symm
    · rw [mem_append, mem_singleton]
  refine ⟨?_, ?_, fun path => ?_, fun folded path found => ?_, fun path found => ?_, ?_,
    fun last isLast => ?_⟩
  · rw [length_append, length_singleton]
    exact reached.admitted.accept admissible
  · rw [map_append, ← reached.entries]
    rfl
  · rw [paths, reached.paths]
    simp [or_and_right, exists_or, eq_comm]
  · rw [paths]
    simp only [IndexState.accept] at found
    split_ifs at found
    · rw [OrderedMap.get?_set] at found
      split_ifs at found with same
      · obtain rfl := Option.some.inj found
        exact ⟨same, .inr rfl⟩
      · exact ⟨(reached.lowered _ _ found).1, .inl (reached.lowered _ _ found).2⟩
    · exact ⟨(reached.lowered _ _ found).1, .inl (reached.lowered _ _ found).2⟩
  · rw [paths]
    simp only [IndexState.accept] at found
    split_ifs at found
    · exact .inl (reached.unique path found)
    · exact .inr (Option.some.inj found).symm
  · simp
  · obtain rfl : entry = last := by simpa using isLast
    exact ⟨rfl, rfl⟩

theorem Reached.run (storable : Storable limits lowerCase version (front ++ back)) :
    ∃ final, admitEntries lowerCase limits front.length state (back.map StoredEntry.read) =
        .ok final ∧ Reached lowerCase limits (front ++ back) final := by
  induction back generalizing front state with
  | nil => exact ⟨state, rfl, by rwa [append_nil]⟩
  | cons entry back ih =>
    have admissible := reached.admissible storable
    have next := reached.accept admissible
    rw [append_cons] at storable ⊢
    obtain ⟨final, admitted, reaches⟩ := ih next storable
    refine ⟨final, ?_, reaches⟩
    rw [map_cons, admitEntries, admitEntry_eq_ok.mpr ⟨entry.path, admissible, rfl⟩]
    rw [length_append] at admitted
    exact admitted

end

/-- Every encoding of storable entries is accepted and decodes to them. -/
theorem parseCandidate_of_storable (storable : Storable limits lowerCase version entries)
    (sharing : NameSharing) (extensions : List OptionalExtension) :
    parseCandidate lowerCase (encodeIndex version sharing extensions entries) format limits = .ok {
        entries := entries.map StoredEntry.decoded
        objectFormat := format
        paths := Sorting.sortBy compareUnits (entries.map (·.path)).eraseDups
        version := version.number } := by
  rw [parseCandidate_encodeIndex (fun _ member => storable.readable member) storable.countable
    storable.few storable.fewFiles]
  have start : Reached lowerCase limits ([] : List (StoredEntry format)) initialIndexState :=
    reached_nil lowerCase limits
  rw [← nil_append entries] at storable
  obtain ⟨final, admitted, reached⟩ := start.run storable
  refine ⟨final, admitted, ?_⟩
  rw [nil_append] at reached
  rw [reached.entries]
  congr 1
  refine sortBy_compareUnits_of_perm ((perm_ext_iff_of_nodup (Sorting.nodup_eraseDups _)
    reached.admitted.nodup).mpr fun path => ?_)
  rw [mem_eraseDups, mem_map, reached.paths]

end Storable

variable {bytes : List UInt8}

/-! ## What was read can be stored -/

variable {offset n : Nat}

theorem byteAt_lt (read : byteAt bytes offset = .ok n) : n < 0x100 := by
  unfold byteAt at read
  split at read
  · rename_i value _
    obtain rfl := Except.ok.inj read
    exact value.toNat_lt
  · cases read

variable {stop : Nat}

theorem u32_lt (read : u32 bytes offset stop = .ok n) : n < 0x100000000 := by
  simp only [u32, bind_eq_ok, exists_const, failIf_eq_ok, pure, Except.pure, Except.ok.injEq] at read
  obtain ⟨-, first, isFirst, second, isSecond, third, isThird, fourth, isFourth, rfl⟩ := read
  have := byteAt_lt isFirst
  have := byteAt_lt isSecond
  have := byteAt_lt isThird
  have := byteAt_lt isFourth
  omega

/-- A number that was read, as one of 32 bits. -/
theorem exists_of_u32 (read : u32 bytes offset stop = .ok n) : ∃ value : UInt32, value.toNat = n :=
  ⟨.ofNat n, by
    rw [UInt32.toNat_ofNat']
    exact Nat.mod_eq_of_lt (u32_lt read)⟩

theorem exists_of_readInstant {text : Text} (read : readInstant bytes offset stop = .ok text) :
    ∃ seconds nanoseconds : UInt32, instantText seconds.toNat nanoseconds.toNat = text := by
  simp only [readInstant, bind_eq_ok, pure, Except.pure, Except.ok.injEq] at read
  obtain ⟨seconds, isSeconds, nanoseconds, isNanoseconds, rfl⟩ := read
  obtain ⟨first, rfl⟩ := exists_of_u32 isSeconds
  obtain ⟨second, rfl⟩ := exists_of_u32 isNanoseconds
  exact ⟨first, second, rfl⟩

theorem exists_of_mode {mode : Nat} (supported : supportedModes.contains mode = true)
    (file : mode ≠ 0o040000) : ∃ stored : StoredMode, stored.value = mode := by
  simp only [supportedModes, contains_eq_mem, mem_cons, not_mem_nil, or_false,
    decide_eq_true_eq] at supported
  obtain rfl | rfl | rfl | rfl | rfl := supported
  · exact ⟨.regular, rfl⟩
  · exact ⟨.executable, rfl⟩
  · exact ⟨.symbolicLink, rfl⟩
  · exact ⟨.gitlink, rfl⟩
  · exact absurd rfl file

section Accepted

variable {lowerCase : Text → Text} {limits : TrackedFileEnumerationLimits} {version : Nat}
  {bytes : List UInt8} {path : RelativePath} {parsed : ParsedGitIndex} {reads : List EntryRead}
  {read : EntryRead} {previousRaw : List UInt8} {contentEnd offset : Nat}

/-- An entry that was read is one that Git could have stored without extended flags. -/
theorem exists_of_readEntry (inside : contentEnd ≤ bytes.length)
    (isRead : readEntry format version bytes contentEnd previousRaw offset = .ok read)
    (name : PathName read.raw limits path) :
    ∃ entry : StoredEntry format, entry.read = read.untied ∧ entry.path = path ∧
      entry.extended = false := by
  simp only [readEntry, bind_eq_ok, exists_const, failIf_eq_ok, Prod.exists, pure, Except.pure,
    Except.ok.injEq, Bool.or_eq_false_iff, Bool.not_eq_false', beq_eq_false_iff_ne,
    decide_eq_false_iff_not] at isRead
  obtain ⟨long, ctime, isCtime, mtime, isMtime, device, isDevice, inode, isInode, mode, isMode,
    supported, size, isSize, flags, isFlags, extended, start, isExtended, ⟨file, -⟩, raw, next, isRaw,
    -, rfl⟩ := isRead
  obtain ⟨ctimeSeconds, ctimeNanoseconds, rfl⟩ := exists_of_readInstant isCtime
  obtain ⟨mtimeSeconds, mtimeNanoseconds, rfl⟩ := exists_of_readInstant isMtime
  obtain ⟨device, rfl⟩ := exists_of_u32 isDevice
  obtain ⟨inode, rfl⟩ := exists_of_u32 isInode
  obtain ⟨size, rfl⟩ := exists_of_u32 isSize
  obtain ⟨mode, rfl⟩ := exists_of_mode supported file
  have stage : flags >>> 12 &&& 3 < 4 := Nat.lt_of_le_of_lt Nat.and_le_right (by decide)
  refine ⟨{
    ctimeSeconds, ctimeNanoseconds, mtimeSeconds, mtimeNanoseconds, device, inode, mode, size, path
    uid := 0
    gid := 0
    objectId := slice bytes (offset + 40) (offset + 40 + GitObjectFormat.oidBytes format)
    length_objectId := by
      rw [slice, length_take, length_drop]
      omega
    assumeValid := false
    stage := ⟨_, stage⟩
    skipWorktree := false
    intentToAdd := false }, ?_, rfl, rfl⟩
  have encoded : Utf8.encode path = raw := name.encode
  simp only [StoredEntry.read, EntryRead.untied, StoredEntry.name, encoded]

theorem exists_read_of_storedEntries {count stop : Nat}
    (stored : storedEntries format version bytes contentEnd count offset previousRaw = .ok (reads, stop)) :
    reads.length = count ∧ ∀ read ∈ reads, ∃ previousRaw offset,
      readEntry format version bytes contentEnd previousRaw offset = .ok read := by
  induction count generalizing offset previousRaw reads with
  | zero =>
    cases stored
    exact ⟨rfl, nofun⟩
  | succ count ih =>
    simp only [storedEntries, bind_eq_ok, Prod.exists, pure, Except.pure, Except.ok.injEq,
      Prod.mk.injEq] at stored
    obtain ⟨read, isRead, later, stop, rest, rfl, rfl⟩ := stored
    obtain ⟨length, others⟩ := ih rest
    exact ⟨congrArg (· + 1) length, forall_mem_cons.mpr ⟨⟨_, _, isRead⟩, others⟩⟩

theorem entries_of_admitEntries {index : Nat} {state final : IndexState}
    (ok : admitEntries lowerCase limits index state reads = .ok final) :
    ∃ values, Forall₂ (fun read value => PathName read.raw limits value) reads values ∧
      final.entries = state.entries ++ zipWith entryOf reads values := by
  induction reads generalizing index state with
  | nil =>
    obtain rfl := Except.ok.inj ok
    exact ⟨[], .nil, (append_nil _).symm⟩
  | cons read reads ih =>
    obtain ⟨after, entry, rest⟩ := bind_eq_ok.mp ok
    obtain ⟨value, admissible, rfl⟩ := admitEntry_eq_ok.mp entry
    obtain ⟨values, names, entries⟩ := ih rest
    refine ⟨value :: values, .cons admissible.name names, ?_⟩
    rw [entries, IndexState.accept, append_assoc]
    rfl

/-- A reported entry shows everything that is checked of it. -/
theorem read_of_decoded {entry : StoredEntry format} (name : PathName read.raw limits path)
    (same : entry.decoded = entryOf read path) :
    entry.read = read.untied ∧ PathName entry.name limits entry.path := by
  have paths : entry.path = path := congrArg ParsedGitIndexEntry.path same
  have raw : entry.name = read.raw := by rw [StoredEntry.name, paths, name.encode]
  refine ⟨?_, by rwa [raw, paths]⟩
  simp only [StoredEntry.decoded, entryOf, StoredEntry.read, ParsedGitIndexEntry.mk.injEq] at same
  obtain ⟨ctime, device, inode, mode, mtime, objectId, -, size, stage⟩ := same
  simp only [StoredEntry.read, EntryRead.untied, EntryRead.mk.injEq]
  exact ⟨ctime, device, inode, mode, mtime, objectId, size, stage, raw, trivial⟩

theorem exists_stored (accepted : parseCandidate lowerCase bytes format limits = .ok parsed) :
    ∃ entries : List (StoredEntry format), entries.map StoredEntry.decoded = parsed.entries ∧
      ∀ entry ∈ entries, entry.extended = false := by
  obtain ⟨version, count, reads, state, file, rfl⟩ := parseCandidate_eq_ok.mp accepted
  obtain ⟨stop, stored, -⟩ := file.entries
  obtain ⟨values, names, entries⟩ := entries_of_admitEntries file.admitted
  obtain ⟨-, readable⟩ := exists_read_of_storedEntries stored
  simp only [entries, initialIndexState, nil_append]
  clear entries stored file
  induction names with
  | nil => exact ⟨[], rfl, forall_mem_nil _⟩
  | cons name names ih =>
    obtain ⟨⟨previousRaw, offset, isRead⟩, others⟩ := forall_mem_cons.mp readable
    obtain ⟨entry, same, rfl, plain⟩ := exists_of_readEntry (Nat.sub_le _ _) isRead name
    obtain ⟨entries, decoded, allPlain⟩ := ih others
    refine ⟨entry :: entries, ?_, forall_mem_cons.mpr ⟨plain, allPlain⟩⟩
    rw [map_cons, decoded, zipWith_cons_cons, StoredEntry.decoded, same]
    rfl

/-- The entries of what is accepted are encoded again, in any version, with any sharing and any
extensions, and decode to the same index. -/
theorem parseCandidate_reencoded
    (accepted : parseCandidate lowerCase bytes format limits = .ok parsed)
    {entries : List (StoredEntry format)} (same : entries.map StoredEntry.decoded = parsed.entries)
    (present : ∀ entry ∈ entries, entry.skipWorktree = false) {version : IndexVersion}
    (supported : version = .v2 → ∀ entry ∈ entries, entry.intentToAdd = false)
    (sharing : NameSharing) (extensions : List OptionalExtension) :
    parseCandidate lowerCase (encodeIndex version sharing extensions entries) format limits =
      .ok { parsed with version := version.number } := by
  obtain ⟨number, count, reads, state, file, rfl⟩ := parseCandidate_eq_ok.mp accepted
  obtain ⟨stop, stored, -⟩ := file.entries
  obtain ⟨values, names, allEntries⟩ := entries_of_admitEntries file.admitted
  obtain ⟨length, -⟩ := exists_read_of_storedEntries stored
  have agree : entries.map StoredEntry.read = reads.map EntryRead.untied ∧
      ∀ entry ∈ entries, PathName entry.name limits entry.path := by
    simp only [allEntries, initialIndexState, nil_append] at same
    clear allEntries stored length file accepted
    induction names generalizing entries with
    | nil =>
      rw [zipWith_nil_left, map_eq_nil_iff] at same
      subst same
      exact ⟨rfl, forall_mem_nil _⟩
    | cons name names ih =>
      rw [zipWith_cons_cons] at same
      obtain ⟨entry, entries, rfl, first, rest⟩ := map_eq_cons_iff.mp same
      obtain ⟨read, own⟩ := read_of_decoded name first
      obtain ⟨others, allOwn⟩ := ih (fun _ member => present _ (mem_cons_of_mem _ member))
        (fun second _ member => supported second _ (mem_cons_of_mem _ member)) rest
      rw [map_cons, map_cons, read, others]
      exact ⟨rfl, forall_mem_cons.mpr ⟨own, allOwn⟩⟩
  obtain ⟨reads', allNames⟩ := agree
  have size : entries.length = count := by
    rw [← length, ← length_map StoredEntry.read, reads', length_map]
  have readable : ∀ entry ∈ entries, Readable version entry := fun entry member => {
    supported := fun second => by
      rw [StoredEntry.extended, present entry member, supported second entry member]
      rfl
    present := present entry member
    plain := (allNames entry member).zero_notMem
    short := (allNames entry member).short }
  rw [parseCandidate_encodeIndex readable (size ▸ u32_lt file.isCount) (size ▸ file.fewEntries)
    (size ▸ file.fewFiles), reads', admitEntries_untied]
  exact ⟨state, file.admitted, rfl⟩

end Accepted

/-! ## The round trip -/

/-- Encodings of storable entries are accepted and decode to them, and accepted indexes are encoded
again without loss. -/
theorem encodings_round_trip (lowerCase : Text → Text)
    (limits : TrackedFileEnumerationLimits) (format : GitObjectFormat) :
    (∀ version (entries : List (StoredEntry format)), Storable limits lowerCase version entries →
      ∀ sharing extensions,
        parseCandidate lowerCase (encodeIndex version sharing extensions entries) format limits =
          .ok {
            entries := entries.map StoredEntry.decoded
            objectFormat := format
            paths := Sorting.sortBy compareUnits (entries.map (·.path)).eraseDups
            version := version.number }) ∧
    ∀ bytes parsed, parseCandidate lowerCase bytes format limits = .ok parsed →
      (∃ entries : List (StoredEntry format), entries.map StoredEntry.decoded = parsed.entries ∧
        ∀ entry ∈ entries, entry.skipWorktree = false ∧ entry.intentToAdd = false) ∧
      ∀ entries : List (StoredEntry format), entries.map StoredEntry.decoded = parsed.entries →
        (∀ entry ∈ entries, entry.skipWorktree = false) →
        ∀ version : IndexVersion, (version = .v2 → ∀ entry ∈ entries, entry.intentToAdd = false) →
        ∀ sharing extensions,
          parseCandidate lowerCase (encodeIndex version sharing extensions entries) format limits =
            .ok { parsed with version := version.number } := by
  refine ⟨fun _ _ storable sharing extensions =>
    parseCandidate_of_storable storable sharing extensions, fun bytes parsed accepted => ⟨?_, ?_⟩⟩
  · obtain ⟨entries, decoded, plain⟩ := exists_stored accepted
    refine ⟨entries, decoded, fun entry member => ?_⟩
    simpa [StoredEntry.extended] using plain entry member
  · exact fun _ same present _ supported sharing extensions =>
      parseCandidate_reencoded accepted same present supported sharing extensions

/-- An entry of a file, zero but for its stage and its path. -/
def StoredEntry.ofPath (path : Text) (stage : Fin 4) : StoredEntry .sha1 where
  ctimeSeconds := 0
  ctimeNanoseconds := 0
  mtimeSeconds := 0
  mtimeNanoseconds := 0
  device := 0
  inode := 0
  mode := .regular
  uid := 0
  gid := 0
  size := 0
  objectId := replicate 20 0
  length_objectId := rfl
  assumeValid := false
  stage := stage
  skipWorktree := false
  intentToAdd := false
  path := path

/-- An unmerged file and one that shares a directory with it. -/
theorem encodings_round_trip_unmerged :
    parseCandidate asciiLowerCase (encodeIndex .v4 .longest [] [.ofPath (js "src/a") 1,
        .ofPath (js "src/a") 2, .ofPath (js "src/b") 0]) .sha1 trackedFileEnumerationDefaultLimits =
      .ok {
        entries := [StoredEntry.decoded (.ofPath (js "src/a") 1),
          StoredEntry.decoded (.ofPath (js "src/a") 2), StoredEntry.decoded (.ofPath (js "src/b") 0)]
        objectFormat := .sha1
        paths := Sorting.sortBy compareUnits [js "src/a", js "src/b"]
        version := 4 } :=
  (encodings_round_trip asciiLowerCase trackedFileEnumerationDefaultLimits .sha1).1 .v4 _ {
    countable := by decide
    few := by decide
    fewFiles := by decide
    canonical := by decide
    short := by decide
    depth := by decide
    increasing := by decide
    noDirectory := by decide
    safe := by decide
    noGit := by decide
    alone := by decide
    cased := by decide
    present := by decide
    supported := by decide } .longest []

/-- Two files that Git stores, and that are one file where case does not count, are refused. -/
theorem cased_entries_refused :
    GitEntries trackedFileEnumerationDefaultLimits [.ofPath (js "A") 0, .ofPath (js "a") 0] ∧
      ∀ parsed, parseCandidate asciiLowerCase
        (encodeIndex .v2 .longest [] [.ofPath (js "A") 0, .ofPath (js "a") 0]) .sha1
          trackedFileEnumerationDefaultLimits ≠ .ok parsed := by
  refine ⟨⟨by decide, by decide, by decide, by decide, by decide, by decide, by decide, by decide⟩,
    fun parsed accepted => ?_⟩
  rw [parseCandidate_encodeIndex (by
    simp only [forall_mem_cons]
    exact ⟨⟨by decide, rfl, by decide, by decide⟩, ⟨by decide, rfl, by decide, by decide⟩, nofun⟩)
    (by decide) (by decide) (by decide)] at accepted
  obtain ⟨state, admitted, -⟩ := accepted
  have refused : (admitEntries asciiLowerCase trackedFileEnumerationDefaultLimits 0 initialIndexState
      ([.ofPath (js "A") 0, .ofPath (js "a") 0].map StoredEntry.read)).isOk = false := by decide
  rw [admitted] at refused
  cases refused

end AgentContextLint.TrackedFileEnumeration
