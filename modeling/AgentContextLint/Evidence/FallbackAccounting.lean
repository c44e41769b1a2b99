import AgentContextLint.Evidence.FilesystemFallback
import AgentContextLint.Evidence.NestedIgnoreFiles

/-!
# What the filesystem fallback accounts for

The invariant of the walk is an account of the entries it has listed: every one of them is a file
of the result, a directory that was read or is pending, or a problem (`Account`). A round keeps it
(`Account.skips`, `Account.expands`), and so does a run (`Reached.account`).

The paths of a result are distinct exactly if no directory on the way lists a file twice
(`filesystemFallback_losesNothing_iff`). A listing can do that: two names of one directory may
decode to one text.
-/

namespace AgentContextLint.FilesystemFallback

open Utf16 List
open ReadOnlyFacade (ReadOnlyRepositoryDirectory Named childText)

open Metered Sorting
open RepositoryPath (joinSegments_pathSegments pathSegments pathSegments_append repositoryRoot)

variable {directory : ReadOnlyRepositoryDirectory} {listing : Listing}

structure Reading where
  path : RelativePath
  directory : ReadOnlyRepositoryDirectory

def followed (children : List RelativePath) : List RelativePath :=
  children.filter fun child => !isGitEntry child

variable {limits : FallbackLimits} {repository : FallbackRepository}

/-! ## The children of a directory -/

variable {child : RelativePath}

theorem isGitEntry_of_fateOf {fate : Fate} (decided : fateOf repository child = .ok fate) :
    isGitEntry child = true ↔ fate = .git := by
  unfold fateOf at decided
  split_ifs at decided with isGit
  · cases decided
    exact ⟨fun _ => rfl, fun _ => isGit⟩
  · refine ⟨fun git => absurd git isGit, fun same => ?_⟩
    rw [same] at decided
    split at decided
    · split at decided <;> cases decided
    · split_ifs at decided <;> cases decided

variable {children : List RelativePath}

/-- Every child that is followed is a file, a directory or a problem. -/
theorem followed_perm (decided : ∀ child ∈ children, ∃ fate, fateOf repository child = .ok fate) :
    (followed children).Perm (filesOf repository children ++ directoriesOf repository children ++
      (problemsOf repository children).map (·.path)) := by
  induction children with
  | nil => exact .nil
  | cons child rest ih =>
    rcases forall_mem_cons.mp decided with ⟨first, others⟩
    rcases first with ⟨fate, decided⟩
    have isGit := isGitEntry_of_fateOf decided
    have later := ih others
    cases fate with
    | git =>
      have skipped : isGitEntry child = true := isGit.mpr rfl
      simpa [followed, filesOf, directoriesOf, problemsOf, problemOf, decided, skipped]
        using later
    | problem code =>
      have kept : isGitEntry child = false := by simpa using isGit
      simp only [followed, filesOf, directoriesOf, problemsOf, problemOf, decided, kept,
        filter_cons, filterMap_cons, map_cons] at later ⊢
      exact (later.cons child).trans perm_middle.symm
    | directory =>
      have kept : isGitEntry child = false := by simpa using isGit
      simp [followed, filesOf, directoriesOf, problemsOf, problemOf, decided, kept]
        at later ⊢
      exact (later.cons child).trans perm_middle.symm
    | file =>
      have kept : isGitEntry child = false := by simpa using isGit
      simpa [followed, filesOf, directoriesOf, problemsOf, problemOf, decided, kept]
        using later

/-! ## The account of a state -/

variable (repository)

/-- A path that the walk takes for a directory. -/
def Entered (path : RelativePath) : Prop :=
  path = repositoryRoot ∨ fateOf repository path = .ok .directory

/-- Why a path is not followed, behind some readings. -/
inductive Unfollowed (readings : List Reading) : TrackedFileEnumerationProblem → Prop
  | child {child : RelativePath} {code : String}
      (refused : fateOf repository child = .ok (.problem code)) : Unfollowed readings ⟨code, child⟩
  | unread {path : RelativePath} {failure : RepositoryFailure} {code : String}
      (entered : Entered repository path)
      (failed : repository.readDirectory path = .error failure)
      (eligible : fallbackEligible failure = some code) : Unfollowed readings ⟨code, path⟩
  | repeated {path : RelativePath} {directory : ReadOnlyRepositoryDirectory}
      (entered : Entered repository path) (read : repository.readDirectory path = .ok directory)
      (known : identityText directory.identity ∈
        readings.map fun reading => identityText reading.directory.identity) :
      Unfollowed readings ⟨"DIRECTORY_IDENTITY_REPEATED", path⟩

def entriesOf (readings : List Reading) : List RelativePath :=
  repositoryRoot :: readings.flatMap fun reading =>
    followed reading.directory.entries

variable (limits) in
structure Account (readings : List Reading) (all : List TrackedFileEnumerationProblem)
    (state : Traversal) : Prop where
  directories :
    state.directories = readings.map fun reading => identityText reading.directory.identity
  distinct : state.directories.Nodup
  read : ∀ reading ∈ readings, repository.readDirectory reading.path = .ok reading.directory
  entered : ∀ reading ∈ readings, Entered repository reading.path
  awaits : ∀ pending ∈ state.pending, Entered repository pending.path
  paths : state.paths = readings.flatMap fun reading =>
    filesOf repository reading.directory.entries
  reports : Reports limits all state
  why : ∀ problem ∈ all, Unfollowed repository readings problem
  balance : (entriesOf readings).Perm (state.pending.map (·.path) ++ state.paths ++
    readings.map (·.path) ++ all.map (·.path))

variable {repository} {problem : TrackedFileEnumerationProblem}

theorem Unfollowed.later {readings more : List Reading}
    (why : Unfollowed repository readings problem) :
    Unfollowed repository (readings ++ more) problem := by
  cases why with
  | child refused => exact .child refused
  | unread entered failed eligible => exact .unread entered failed eligible
  | repeated entered read known =>
    refine .repeated entered read ?_
    rw [map_append]
    exact mem_append_left _ known

theorem unfollowed_problemsOf {readings : List Reading}
    (member : problem ∈ problemsOf repository children) :
    Unfollowed repository readings problem := by
  rcases mem_filterMap.mp member with ⟨child, _, found⟩
  unfold problemOf at found
  split at found
  · next code refused =>
      cases found
      exact .child refused
  · cases found

variable {readings : List Reading} {all : List TrackedFileEnumerationProblem} {state : Traversal}
  {current : PendingDirectory} {rest : List PendingDirectory}

theorem account_start : Account limits repository [] [] start where
  directories := rfl
  distinct := nodup_nil
  read := forall_mem_nil _
  entered := forall_mem_nil _
  awaits := forall_mem_singleton.mpr (.inl rfl)
  paths := rfl
  reports := ⟨take_nil.symm, (Nat.zero_sub _).symm⟩
  why := forall_mem_nil _
  balance := .refl _

/-- A directory that is skipped is a problem. -/
theorem Account.skips {code : String} (account : Account limits repository readings all state)
    (pending : state.pending = current :: rest)
    (why : Skips repository { state with pending := rest } current.path code) :
    Account limits repository readings (all ++ [⟨code, current.path⟩])
      (recordProblem limits ⟨code, current.path⟩ { state with pending := rest }) := by
  have awaits := account.awaits
  rw [pending] at awaits
  rcases forall_mem_cons.mp awaits with ⟨entered, later⟩
  have reports : Reports limits all { state with pending := rest } :=
    ⟨account.reports.problems, account.reports.omittedProblems⟩
  refine ⟨?_, ?_, account.read, account.entered, ?_, ?_, reports.recordProblem _, ?_, ?_⟩
  · rw [recordProblem_directories]
    exact account.directories
  · rw [recordProblem_directories]
    exact account.distinct
  · rw [recordProblem_pending]
    exact later
  · rw [recordProblem_paths]
    exact account.paths
  · refine forall_mem_append.mpr ⟨account.why, forall_mem_singleton.mpr ?_⟩
    cases why with
    | unread failed eligible => exact .unread entered failed eligible
    | repeated read known =>
      refine .repeated entered read ?_
      rw [← account.directories]
      exact known
  · rw [recordProblem_pending, recordProblem_paths, perm_iff_count]
    intro path
    have counts := account.balance.count_eq path
    rw [pending] at counts
    simp only [map_append, map_cons, map_nil, count_append, count_cons, count_nil] at counts ⊢
    omega

/-- A directory that is expanded leaves its children to be followed. -/
theorem Account.expands (account : Account limits repository readings all state)
    (pending : state.pending = current :: rest)
    (read : repository.readDirectory current.path = .ok directory)
    (fresh : identityText directory.identity ∉ state.directories)
    (visits : Visits limits repository current.depth directory.entries
      ⟨{ state with
        pending := rest
        directories := state.directories ++ [identityText directory.identity] }, []⟩ listing) :
    Account limits repository (readings ++ [⟨current.path, directory⟩])
      (all ++ problemsOf repository directory.entries)
      { listing.state with pending := listing.childDirectories ++ listing.state.pending } := by
  have awaits := account.awaits
  rw [pending] at awaits
  rcases forall_mem_cons.mp awaits with ⟨entered, later⟩
  have reports : Reports limits all { state with
      pending := rest
      directories := state.directories ++ [identityText directory.identity] } :=
    ⟨account.reports.problems, account.reports.omittedProblems⟩
  have reported := visits.reports all reports
  refine ⟨?_, ?_, ?_, ?_, ?_, ?_, ⟨reported.problems, reported.omittedProblems⟩, ?_, ?_⟩
  · show listing.state.directories = _
    rw [visits.directories, map_append, ← account.directories]
    rfl
  · show listing.state.directories.Nodup
    rw [visits.directories]
    exact nodup_append.mpr ⟨account.distinct, nodup_singleton _,
      fun known member other single same =>
        fresh (mem_singleton.mp single ▸ same ▸ member)⟩
  · exact forall_mem_append.mpr ⟨account.read, forall_mem_singleton.mpr read⟩
  · exact forall_mem_append.mpr ⟨account.entered, forall_mem_singleton.mpr entered⟩
  · show ∀ pending ∈ listing.childDirectories ++ listing.state.pending, _
    rw [visits.childDirectories, visits.pending]
    refine forall_mem_append.mpr ⟨fun pending member => ?_, later⟩
    rcases mem_map.mp member with ⟨child, listed, rfl⟩
    exact .inr (of_decide_eq_true (mem_filter.mp listed).2)
  · show listing.state.paths = _
    rw [visits.paths, flatMap_append, ← account.paths, flatMap_singleton]
  · exact forall_mem_append.mpr ⟨fun problem member => (account.why problem member).later,
      fun problem member => unfollowed_problemsOf member⟩
  · show Perm _ ((listing.childDirectories ++ listing.state.pending).map (·.path) ++
      listing.state.paths ++ _ ++ _)
    rw [visits.childDirectories, visits.pending, visits.paths, perm_iff_count]
    intro path
    have counts := account.balance.count_eq path
    have listed := (followed_perm visits.decided).count_eq path
    rw [pending] at counts
    simp only [entriesOf, flatMap_append, flatMap_singleton, nil_append,
      map_append, map_map, Function.comp_def, map_cons, map_nil, map_id',
      count_append, count_cons, count_nil] at counts listed ⊢
    omega

/-! ## Runs -/

variable (limits repository) in
/-- The states that the loop passes. -/
inductive Reached : Traversal → Prop
  | start : Reached start
  | round {state next : Traversal} {current : PendingDirectory} {rest : List PendingDirectory}
      (reached : Reached state) (pending : state.pending = current :: rest)
      (ran : round limits repository current { state with pending := rest } = .ok next) :
      Reached next

/-- The loop at a pending directory. -/
theorem traverse_pending (pending : state.pending = current :: rest) :
    traverse limits repository state =
      match round limits repository current { state with pending := rest } with
      | .error failure => .error failure
      | .ok next => traverse limits repository next := by
  rw [traverse]
  split
  · next none => rw [none] at pending; cases pending
  · next other later here =>
      cases here.symm.trans pending
      split <;> simp_all

theorem traverse_empty (pending : state.pending = []) :
    traverse limits repository state = .ok state := by
  rw [traverse]
  split
  · rfl
  · next here => cases here.symm.trans pending

/-- A run ends in a reached state without pending directories, or a round fails on the way. -/
theorem Reached.ends (reached : Reached limits repository state) :
    (∃ final, traverse limits repository state = .ok final ∧
      Reached limits repository final ∧ final.pending = []) ∨
    ∃ failure stuck current rest, traverse limits repository state = .error failure ∧
      Reached limits repository stuck ∧ stuck.pending = current :: rest ∧
      FilesystemFallback.round limits repository current { stuck with pending := rest } =
        .error failure := by
  fun_induction traverse limits repository state with
  | case1 state pending => exact .inl ⟨state, rfl, reached, pending⟩
  | case2 state current rest pending failure ran =>
    exact .inr ⟨failure, state, current, rest, rfl, reached, pending, ran⟩
  | case3 state current rest pending next ran ih => exact ih (reached.round pending ran)

/-- The run from a reached state is the rest of the whole run. -/
theorem Reached.traverse_eq (reached : Reached limits repository state) :
    traverse limits repository state = traverse limits repository FilesystemFallback.start := by
  induction reached with
  | start => rfl
  | round reached pending ran ih => rw [← ih, traverse_pending pending, ran]

variable (repository) in
/-- If the directory on top of the stack is going to be expanded, it lists no file twice. -/
def ListsOnce (state : Traversal) : Prop :=
  ∀ current rest directory, state.pending = current :: rest →
    repository.readDirectory current.path = .ok directory →
    identityText directory.identity ∉ state.directories →
    (filesOf repository directory.entries).Nodup

/-- A reached state has an account, whose directories list no file twice if none did on the
way. -/
theorem Reached.account (reached : Reached limits repository state) :
    ∃ readings all, Account limits repository readings all state ∧
      ((∀ state, Reached limits repository state → ListsOnce repository state) →
        ∀ reading ∈ readings, (filesOf repository reading.directory.entries).Nodup) := by
  induction reached with
  | start => exact ⟨[], [], account_start, fun _ => forall_mem_nil _⟩
  | @round state next current rest reached pending ran ih =>
    rcases ih with ⟨readings, all, account, once⟩
    cases (round_rounds ran).2 with
    | skips why => exact ⟨readings, _, account.skips pending why, once⟩
    | expands read fresh visits =>
      refine ⟨_, _, account.expands pending read fresh visits, fun listsOnce => ?_⟩
      refine forall_mem_append.mpr
        ⟨once listsOnce, forall_mem_singleton.mpr ?_⟩
      exact listsOnce state reached current rest _ pending read fresh

variable {next : Traversal}

theorem Rounds.paths (rounds : Rounds limits repository current state next) :
    state.paths <+: next.paths := by
  cases rounds with
  | skips why => rw [recordProblem_paths]
  | expands read fresh visits =>
    show state.paths <+: _
    rw [visits.paths]
    exact prefix_append _ _

theorem Rounds.expanded (rounds : Rounds limits repository current state next)
    (read : repository.readDirectory current.path = .ok directory)
    (fresh : identityText directory.identity ∉ state.directories) :
    next.paths = state.paths ++ filesOf repository directory.entries := by
  cases rounds with
  | skips why =>
    cases why with
    | unread failed eligible => cases read.symm.trans failed
    | repeated other known =>
      cases read.symm.trans other
      exact absurd known fresh
  | expands other unknown visits =>
    cases read.symm.trans other
    exact visits.paths

/-- The rest of a run only adds paths. -/
theorem traverse_paths {final : Traversal}
    (ran : traverse limits repository state = .ok final) : state.paths <+: final.paths := by
  fun_induction traverse limits repository state with
  | case1 state pending => cases ran; exact prefix_rfl
  | case2 => cases ran
  | case3 state current rest pending next round ih =>
    have added := (round_rounds round).2.paths
    exact added.trans (ih ran)

/-! ## Failures -/

variable (limits repository) in
/-- Why a round ends the enumeration. -/
inductive Stops (current : PendingDirectory) (state : Traversal) : Failure → Prop
  | traversal (beyond : limits.maximumDirectories ≤ state.directories.length ∨
      limits.maximumDepth < current.depth) : Stops current state traversalLimit
  | files {directory : ReadOnlyRepositoryDirectory}
      (read : repository.readDirectory current.path = .ok directory)
      (many : limits.maximumFiles <
        state.paths.length + (filesOf repository directory.entries).length) :
      Stops current state fileLimit
  | unread {failure : RepositoryFailure}
      (failed : repository.readDirectory current.path = .error failure)
      (fatal : fallbackEligible failure = none) : Stops current state (.repository failure)
  | uninspected {directory : ReadOnlyRepositoryDirectory} {child : RelativePath}
      {failure : RepositoryFailure}
      (read : repository.readDirectory current.path = .ok directory)
      (listed : child ∈ directory.entries) (failed : repository.inspect child = .error failure)
      (fatal : inspectionProblem failure = none) : Stops current state (.repository failure)

theorem fateOf_error {failure : RepositoryFailure}
    (failed : fateOf repository child = .error failure) :
    repository.inspect child = .error failure ∧ inspectionProblem failure = none := by
  unfold fateOf at failed
  split_ifs at failed
  split at failed
  · next thrown inspected =>
      split at failed
      · cases failed
      · next fatal =>
          cases failed
          exact ⟨inspected, fatal⟩
  · split_ifs at failed

variable {failure : Failure}

theorem visitChildren_error {depth : Nat}
    (failed : visitChildren limits repository depth children listing = .error failure) :
    (failure = fileLimit ∧ limits.maximumFiles <
      listing.state.paths.length + (filesOf repository children).length) ∨
    ∃ child thrown, failure = .repository thrown ∧ child ∈ children ∧
      repository.inspect child = .error thrown ∧ inspectionProblem thrown = none := by
  induction children generalizing listing with
  | nil => cases failed
  | cons child rest ih =>
    rw [visitChildren] at failed
    split at failed
    · next thrown undecided =>
        cases failed
        exact .inr ⟨child, thrown, rfl, mem_cons_self, fateOf_error undecided⟩
    · next fate decided =>
        cases admitted : admitChild limits depth child listing fate with
        | error stopped =>
          rw [admitted] at failed
          cases failed
          unfold admitChild at admitted
          split at admitted
          · cases admitted
          · cases admitted
          · cases admitted
          · split_ifs at admitted with full
            cases admitted
            refine .inl ⟨rfl, ?_⟩
            have first : filesOf repository (child :: rest) = child :: filesOf repository rest := by
              rw [filesOf, filter_cons_of_pos (by simp [decided]), filesOf]
            rw [first, length_cons]
            omega
        | ok middle =>
          rw [admitted] at failed
          have paths := (admitChild_visits decided admitted).paths
          rcases ih failed with ⟨limited, many⟩ | ⟨other, thrown, same, member, why⟩
          · refine .inl ⟨limited, ?_⟩
            have split : filesOf repository (child :: rest) =
                filesOf repository [child] ++ filesOf repository rest :=
              filter_append [child] rest
            rw [paths, length_append] at many
            rw [split, length_append]
            omega
          · exact .inr ⟨other, thrown, same, mem_cons_of_mem _ member, why⟩

theorem round_error (failed : round limits repository current state = .error failure) :
    Stops limits repository current state failure := by
  unfold FilesystemFallback.round at failed
  split_ifs at failed with limited
  · cases failed
    exact .traversal limited
  · split at failed
    · next thrown unread =>
        split at failed
        · cases failed
        · next fatal =>
            cases failed
            exact .unread unread fatal
    · next directory read =>
        unfold expand at failed
        split_ifs at failed with known
        cases visited : visitChildren limits repository current.depth directory.entries
            ⟨{ state with
              directories := state.directories ++ [identityText directory.identity] }, []⟩ with
        | error stopped =>
          rw [visited] at failed
          cases failed
          rcases visitChildren_error visited with ⟨rfl, many⟩ |
            ⟨child, thrown, rfl, listed, failed, fatal⟩
          · exact .files read many
          · exact .uninspected read listed failed fatal
        | ok listing =>
          rw [visited] at failed
          cases failed

/-! ## Distinct paths -/

theorem childText_inj {directory other : RelativePath} {name otherName : Text}
    (named : Named name) (otherNamed : Named otherName)
    (same : childText directory name = childText other otherName) : directory = other := by
  unfold childText at same
  split_ifs at same with isRoot otherRoot otherRoot
  · exact isRoot.trans otherRoot.symm
  · refine absurd ?_ named.slashless
    rw [same]
    exact mem_append_right _ mem_cons_self
  · refine absurd ?_ otherNamed.slashless
    rw [← same]
    exact mem_append_right _ mem_cons_self
  · have segments := congrArg pathSegments same
    rw [pathSegments_append, pathSegments_append,
      ReadOnlyFacade.pathSegments_named named, ReadOnlyFacade.pathSegments_named otherNamed]
      at segments
    have parents := (append_inj' segments rfl).1
    rw [← joinSegments_pathSegments directory, parents,
      joinSegments_pathSegments]

/-- Two directories that were read have no child in common. -/
theorem disjoint_readings {first second : Reading}
    (firstRead : repository.readDirectory first.path = .ok first.directory)
    (secondRead : repository.readDirectory second.path = .ok second.directory)
    (distinct : first.path ≠ second.path) :
    (filesOf repository first.directory.entries).Disjoint
      (filesOf repository second.directory.entries) := by
  intro child inFirst inSecond
  rcases repository.lists _ _ firstRead with ⟨names, named, entries⟩
  rcases repository.lists _ _ secondRead with ⟨others, otherNamed, otherEntries⟩
  have listed := mem_of_mem_filter inFirst
  have alsoListed := mem_of_mem_filter inSecond
  rw [entries] at listed
  rw [otherEntries] at alsoListed
  rcases mem_map.mp listed with ⟨name, isName, rfl⟩
  rcases mem_map.mp alsoListed with ⟨other, isOther, same⟩
  exact distinct (childText_inj (named name isName) (otherNamed other isOther) same.symm)

theorem Account.nodup (account : Account limits repository readings all state)
    (once : ∀ reading ∈ readings, (filesOf repository reading.directory.entries).Nodup) :
    state.paths.Nodup := by
  rw [account.paths]
  refine nodup_flatMap.mpr ⟨once, ?_⟩
  have distinct := account.distinct
  rw [account.directories] at distinct
  refine Pairwise.imp_of_mem (fun inFirst inSecond apart => ?_)
    (pairwise_map.mp distinct)
  refine disjoint_readings (account.read _ inFirst) (account.read _ inSecond) fun same => apart ?_
  have read := account.read _ inFirst
  rw [same, account.read _ inSecond] at read
  rw [Except.ok.inj read]

/-! ## Results -/

variable (limits repository) in
/-- What a result says of the directories that were read and of everything that was not
followed. -/
structure Accounted (result : TrackedFileEnumerationResult) (readings : List Reading)
    (all : List TrackedFileEnumerationProblem) : Prop where
  distinct : (readings.map (·.directory.identity)).Nodup
  read : ∀ reading ∈ readings, repository.readDirectory reading.path = .ok reading.directory
  entered : ∀ reading ∈ readings, Entered repository reading.path
  files : ∀ path ∈ result.paths, fateOf repository path = .ok .file
  why : ∀ problem ∈ all, Unfollowed repository readings problem
  problems : result.problems.Perm (all.take limits.maximumProblems)
  counted : result.problems.length + result.omittedProblems = all.length
  balance : (entriesOf readings).Perm
    (result.paths ++ readings.map (·.path) ++ all.map (·.path))

variable (limits repository) in
/-- Every entry is accounted for once, and the paths are distinct and sorted. -/
def LosesNothing (result : TrackedFileEnumerationResult) : Prop :=
  (∃ readings all, Accounted limits repository result readings all) ∧
    result.paths.Pairwise (· < ·)

variable {collation : Collation} {reason : TrackedFileEnumerationReason}
  {result : TrackedFileEnumerationResult}

theorem filesystemFallback_eq_ok
    (ran : filesystemFallback limits repository collation reason = .ok result) :
    ∃ final, traverse limits repository start = .ok final ∧
      Reached limits repository final ∧ final.pending = [] ∧
      result.paths = sortBy compareUnits final.paths ∧
      result.problems = sortBy (compareProblems collation) final.problems ∧
      result.omittedProblems = final.omittedProblems := by
  rcases bind_eq_ok.mp ran with ⟨final, traversed, ran⟩
  cases ran
  have begun : Reached limits repository start := .start
  rcases begun.ends with
    ⟨other, same, reached, empty⟩ | ⟨failure, _, _, _, failed, _⟩
  · cases traversed.symm.trans same
    exact ⟨final, traversed, reached, empty, rfl, rfl, rfl⟩
  · cases traversed.symm.trans failed

theorem Account.accounted (account : Account limits repository readings all state)
    (empty : state.pending = []) (paths : result.paths = sortBy compareUnits state.paths)
    (problems : result.problems = sortBy (compareProblems collation) state.problems)
    (omitted : result.omittedProblems = state.omittedProblems) :
    Accounted limits repository result readings all where
  distinct := by
    have distinct := account.distinct
    rw [account.directories] at distinct
    refine Nodup.of_map identityText ?_
    rw [map_map]
    exact distinct
  read := account.read
  entered := account.entered
  files path member := by
    rw [paths, mem_sortBy, account.paths] at member
    rcases mem_flatMap.mp member with ⟨reading, _, listed⟩
    exact of_decide_eq_true (mem_filter.mp listed).2
  why := account.why
  problems := by
    rw [problems, ← account.reports.problems]
    exact sortBy_perm _ _
  counted := by
    rw [problems, omitted, length_sortBy, account.reports.problems,
      account.reports.omittedProblems, length_take]
    omega
  balance := by
    have balance := account.balance
    rw [empty, map_nil, nil_append] at balance
    rw [paths]
    exact balance.trans (((sortBy_perm _ _).symm.append_right _).append_right _)

theorem nodup_of_strict {paths : List RelativePath} (strict : paths.Pairwise (· < ·)) :
    paths.Nodup :=
  strict.imp fun {first second} less (same : first = second) =>
    List.lt_irrefl second (same ▸ less)

/-- The enumeration ends. A failure is one of the limits or a fatal failure of the repository,
and a result accounts for every entry that was listed. Its paths are distinct as well exactly if
no directory on the way lists a file twice. -/
theorem filesystemFallback_losesNothing_iff (limits : FallbackLimits)
    (repository : FallbackRepository) (collation : Collation)
    (reason : TrackedFileEnumerationReason) :
    (∀ failure, filesystemFallback limits repository collation reason = .error failure →
      ∃ state current rest, Reached limits repository state ∧ state.pending = current :: rest ∧
        Stops limits repository current { state with pending := rest } failure) ∧
    ∀ result, filesystemFallback limits repository collation reason = .ok result →
      (∃ readings all, Accounted limits repository result readings all) ∧
      (LosesNothing limits repository result ↔
        ∀ state, Reached limits repository state → ListsOnce repository state) := by
  refine ⟨fun failure failed => ?_, fun result ran => ?_⟩
  · have begun : Reached limits repository start := .start
    rcases begun.ends with
      ⟨final, same, _⟩ | ⟨thrown, state, current, rest, same, reached, pending, stuck⟩
    · rw [filesystemFallback, same] at failed
      cases failed
    · rw [filesystemFallback, same] at failed
      cases failed
      exact ⟨state, current, rest, reached, pending, round_error stuck⟩
  · rcases filesystemFallback_eq_ok ran with
      ⟨final, traversed, reached, empty, paths, problems, omitted⟩
    rcases reached.account with ⟨readings, all, account, once⟩
    have accounted := account.accounted empty paths problems omitted
    refine ⟨⟨readings, all, accounted⟩, fun nothing => ?_, fun listsOnce => ?_⟩
    · have distinct := nodup_of_strict nothing.2
      rw [paths, nodup_sortBy] at distinct
      intro state passed current rest directory pending read fresh
      have later := passed.traverse_eq
      rw [traversed, traverse_pending pending] at later
      split at later
      · cases later
      · next next ran =>
          have added := traverse_paths later
          rw [(round_rounds ran).2.expanded read fresh] at added
          exact (nodup_append.mp (distinct.sublist added.sublist)).2.1
    · refine ⟨⟨readings, all, accounted⟩, ?_⟩
      rw [paths]
      exact sortBy_compareUnits_strict (account.nodup (once listsOnce))

/-! ## A listing of the facade that names a file twice -/

section Facade

open ReadOnlyFacade StatefulRuns PosixTree

variable {ν : Type}

theorem readDirectory_lists {host : Host ν} {facade : Facade} {path : RelativePath}
    {directory : ReadOnlyRepositoryDirectory}
    (ran : Yields (readDirectory host facade path) directory) :
    ∃ names : List Text, (∀ name ∈ names, Named name) ∧
      directory.entries = names.map (childText path) := by
  rcases readDirectory_reads ran with ⟨_, _, _, _, _, entries, named⟩
  exact ⟨_, fun name member => named name ((mem_sortBy compareUnits).mp member), entries⟩

/-- An operation of the facade with nothing used before. -/
def outcomeOf {α : Type} (operation : Operation α) : Except RepositoryFailure α :=
  match operation ⟨0, 0, 0, 0⟩ with
  | .ok (value, _) => .ok value
  | .error (.failed thrown) => .error thrown
  | .error .outOfFuel => .error .other

theorem yields_of_outcomeOf {α : Type} {operation : Operation α} {value : α}
    (ran : outcomeOf operation = .ok value) : Yields operation value := by
  unfold outcomeOf at ran
  split at ran
  · next found finish yields =>
      cases ran
      exact ⟨_, finish, yields⟩
  · cases ran
  · cases ran

def facadeRepository (host : Host ν) (facade : Facade) : FallbackRepository where
  inspect path := outcomeOf (inspect host facade path)
  readDirectory path := outcomeOf (readDirectory host facade path)
  lists _ _ read := readDirectory_lists (yields_of_outcomeOf read)

/-- A directory of two files. The bytes of one name are no text, and they decode to the name of
the other. -/
def mojibakeTree : FileTree Nat where
  top := 0
  kind y := if y = 0 then .directory else .file
  search _ := true
  child y name := if y = 0 then [([0xff], 1), ([0xef, 0xbf, 0xbd], 2)].lookup name else none
  parent _ := 0
  top_directory := rfl

def mojibakeHost : Host Nat where
  tree := mojibakeTree
  attributes y := ⟨1, y, 0, 0, 1, 0, 0⟩
  content _ := []
  names y := if y = 0 then [[0xff], [0xef, 0xbf, 0xbd]] else []
  symlinkMaximum := 40
  causeCode _ := none
  fails _ := none
  fragment _ := 0
  stops _ := none

def mojibakeRepository : FallbackRepository :=
  facadeRepository mojibakeHost
    ⟨defaultLimits, [], identityOf (mojibakeHost.statsOf 0), forall_mem_nil _⟩

/-- `TRACKED_FILE_ENUMERATION_DEFAULT_LIMITS` -/
def fallbackDefaultLimits : FallbackLimits where
  toTrackedFileEnumerationLimits := trackedFileEnumerationDefaultLimits
  maximumDirectories := 100000
  maximumProblems := 256

def mojibakeFinal : Traversal :=
  ⟨[[0xfffd], [0xfffd]], [], 0, [], [js "1:0"]⟩

theorem traverse_mojibake :
    traverse fallbackDefaultLimits mojibakeRepository start = .ok mojibakeFinal := by
  have ran : round fallbackDefaultLimits mojibakeRepository
      ⟨0, repositoryRoot⟩ { start with pending := [] } = .ok mojibakeFinal := by
    decide +kernel
  have pending : start.pending = [⟨0, repositoryRoot⟩] := rfl
  rw [traverse_pending pending, ran]
  exact traverse_empty rfl

/-- The file is listed twice. -/
theorem mojibake_not_losesNothing :
    ∃ result, filesystemFallback fallbackDefaultLimits mojibakeRepository
        IgnoreEngine.codeUnitCollation .gitDirectoryMissing = .ok result ∧
      ¬ LosesNothing fallbackDefaultLimits mojibakeRepository result := by
  refine ⟨_, by rw [filesystemFallback, traverse_mojibake]; rfl, fun nothing => ?_⟩
  have distinct : mojibakeFinal.paths.Nodup :=
    (nodup_sortBy compareUnits).mp (nodup_of_strict nothing.2)
  exact absurd distinct (by decide)

end Facade

end AgentContextLint.FilesystemFallback
