import AgentContextLint.Evidence.IgnoreEngine
import AgentContextLint.Evidence.RepositoryReads
import AgentContextLint.Evidence.TrackedFileEnumeration

/-!
# The filesystem fallback

Model of `filesystemFallback` of `packages/evidence/src/tracked-file-enumeration.ts`: the walk
over the directories of a repository that has no usable Git index. The stack of pending
directories has its top first.

What the loop over the children does with one of them is in two parts: `fateOf` asks the
repository, and `admitChild` changes the state. A listing is one of the facade: it names the
children of its directory (`childText`), but nothing says that it names them once.
-/

namespace AgentContextLint

open Utf16 List
open ReadOnlyFacade (ReadOnlyRepositoryDirectory Named childText)

/-- The limits that the fallback looks at, behind those of the reader of an index. -/
structure FallbackLimits extends TrackedFileEnumerationLimits where
  maximumDirectories : Nat
  maximumProblems : Nat

inductive TrackedFileEnumerationSource
  | filesystemFallback
  | gitIndex

inductive TrackedFileEnumerationCertainty
  | allFilesNotTracked
  | tracked

inductive TrackedFileEnumerationReason
  | gitDirectoryMissing
  | gitIndexMalformed
  | gitIndexMissing
  | gitIndexUnsupported
  | gitMetadataUnsafe
  | gitWorktreeExternalMetadata
  | verifiedGitIndex

structure TrackedFileEnumerationProblem where
  code : String
  path : RelativePath
  deriving DecidableEq

structure TrackedFileEnumerationError where
  code : String
  message : String
  operation : String
  deriving DecidableEq

structure TrackedFileEnumerationResult where
  certainty : TrackedFileEnumerationCertainty
  limits : FallbackLimits
  omittedProblems : Nat
  paths : List RelativePath
  problems : List TrackedFileEnumerationProblem
  reason : TrackedFileEnumerationReason
  source : TrackedFileEnumerationSource

/-- What the fallback uses of a repository. -/
structure FallbackRepository where
  inspect : RelativePath → Except RepositoryFailure ReadOnlyRepositoryEntry
  readDirectory :
    RelativePath → Except RepositoryFailure ReadOnlyRepositoryDirectory
  lists : ∀ path directory, readDirectory path = .ok directory →
    ∃ names : List Text, (∀ name ∈ names, Named name) ∧
      directory.entries = names.map (childText path)

namespace FilesystemFallback

open Metered Sorting

/-- What ends the enumeration: a failure of the repository, or a limit of its own. -/
inductive Failure
  | repository (failure : RepositoryFailure)
  | enumeration (error : TrackedFileEnumerationError)
  deriving DecidableEq

def limitFailure (message : String) : Failure :=
  .enumeration ⟨"TRACKED_FILE_ENUMERATION_LIMIT_EXCEEDED", message, "fallback-limit"⟩

def traversalLimit : Failure := limitFailure "filesystem fallback traversal limit was exceeded"

def fileLimit : Failure := limitFailure "filesystem fallback file limit was exceeded"

/-! ## Failures of the repository -/

def fatalCodes : List ReadOnlyRepositoryErrorCode :=
  [.aborted, .concurrentOperation, .deadlineExceeded, .invalidOptions, .invalidSelection,
    .limitExceeded, .pathChanged]

/-- `fallbackEligible`, with the code of an eligible failure. -/
def fallbackEligible : RepositoryFailure → Option String
  | .readOnly error => if error.code ∈ fatalCodes then none else some error.code.text
  | .other => none

/-- The code under which a failed inspection is recorded: a file over the size limit counts
as well. -/
def inspectionProblem : RepositoryFailure → Option String
  | .readOnly error =>
    if error.code = .limitExceeded ∧ error.operation = "file-size" then some error.code.text
    else fallbackEligible (.readOnly error)
  | .other => none

/-! ## One child -/

/-- `BUILT_IN_DIRECTORY_ROOTS` -/
def builtInDirectoryRoots : List Text :=
  IgnoreEngine.builtInIgnorePatterns.map dropLast

def isBuiltInIgnoredPath (path : RelativePath) : Bool :=
  builtInDirectoryRoots.any fun root => path == root || (0x2f :: root).isSuffixOf path

def isGitEntry (child : RelativePath) : Bool :=
  child == js ".git" || (js "/.git").isSuffixOf child

inductive Fate
  | git
  | problem (code : String)
  | directory
  | file
  deriving DecidableEq

def fateOf (repository : FallbackRepository) (child : RelativePath) :
    Except RepositoryFailure Fate :=
  if isGitEntry child then .ok .git
  else
    match repository.inspect child with
    | .error failure =>
      match inspectionProblem failure with
      | some code => .ok (.problem code)
      | none => .error failure
    | .ok entry =>
      if entry.type = .directory ∧ isBuiltInIgnoredPath child = true then
        .ok (.problem "BUILT_IN_DIRECTORY_PRUNED")
      else if entry.type = .directory ∧ entry.linkDepth = 0 then .ok .directory
      else if entry.type = .file then .ok .file
      else .ok (.problem "DIRECTORY_LINK_SKIPPED")

/-! ## The walk -/

structure PendingDirectory where
  depth : Nat
  path : RelativePath
  deriving DecidableEq

structure Traversal where
  paths : List RelativePath
  problems : List TrackedFileEnumerationProblem
  omittedProblems : Nat
  pending : List PendingDirectory
  directories : List Text
  deriving DecidableEq

def start : Traversal := ⟨[], [], 0, [⟨0, RepositoryPath.repositoryRoot⟩], []⟩

variable (limits : FallbackLimits) (repository : FallbackRepository)

def recordProblem (problem : TrackedFileEnumerationProblem) (state : Traversal) : Traversal :=
  if state.problems.length < limits.maximumProblems then
    { state with problems := state.problems ++ [problem] }
  else { state with omittedProblems := state.omittedProblems + 1 }

/-- The state of the loop over the children of a directory. -/
structure Listing where
  state : Traversal
  childDirectories : List PendingDirectory

def admitChild (depth : Nat) (child : RelativePath) (listing : Listing) :
    Fate → Except Failure Listing
  | .git => .ok listing
  | .problem code =>
    .ok { listing with state := recordProblem limits ⟨code, child⟩ listing.state }
  | .directory =>
    .ok { listing with
      childDirectories := listing.childDirectories ++ [⟨depth + 1, child⟩] }
  | .file =>
    if limits.maximumFiles ≤ listing.state.paths.length then .error fileLimit
    else .ok { listing with
      state := { listing.state with paths := listing.state.paths ++ [child] } }

def visitChildren (depth : Nat) : List RelativePath → Listing → Except Failure Listing
  | [], listing => .ok listing
  | child :: rest, listing =>
    match fateOf repository child with
    | .error failure => .error (.repository failure)
    | .ok fate => do visitChildren depth rest (← admitChild limits depth child listing fate)

def identityText (identity : ReadOnlyRepositoryIdentity) : Text :=
  identity.device ++ 0x3a :: identity.inode

/-- The rest of a round behind the listing of its directory. -/
def expand (current : PendingDirectory) (directory : ReadOnlyRepositoryDirectory)
    (state : Traversal) : Except Failure Traversal :=
  if identityText directory.identity ∈ state.directories then
    .ok (recordProblem limits ⟨"DIRECTORY_IDENTITY_REPEATED", current.path⟩ state)
  else do
    let listing ← visitChildren limits repository current.depth directory.entries
      ⟨{ state with
        directories := state.directories ++ [identityText directory.identity] }, []⟩
    return { listing.state with pending := listing.childDirectories ++ listing.state.pending }

/-- One round of the loop: `current` is the directory that was on top of the stack. -/
def round (current : PendingDirectory) (state : Traversal) : Except Failure Traversal :=
  if limits.maximumDirectories ≤ state.directories.length ∨
      limits.maximumDepth < current.depth then .error traversalLimit
  else
    match repository.readDirectory current.path with
    | .error failure =>
      match fallbackEligible failure with
      | some code => .ok (recordProblem limits ⟨code, current.path⟩ state)
      | none => .error (.repository failure)
    | .ok directory => expand limits repository current directory state

/-! ### What the parts of a round do -/

variable {limits repository}

section

variable (problem : TrackedFileEnumerationProblem)

include problem

variable (state : Traversal)

@[simp] theorem recordProblem_paths : (recordProblem limits problem state).paths = state.paths := by
  unfold recordProblem
  split <;> rfl

@[simp] theorem recordProblem_pending :
    (recordProblem limits problem state).pending = state.pending := by
  unfold recordProblem
  split <;> rfl

@[simp] theorem recordProblem_directories :
    (recordProblem limits problem state).directories = state.directories := by
  unfold recordProblem
  split <;> rfl

end

variable (limits) in
/-- The problems of a state are the first ones of a longer list, and the others are counted. -/
structure Reports (all : List TrackedFileEnumerationProblem) (state : Traversal) : Prop where
  problems : state.problems = all.take limits.maximumProblems
  omittedProblems : state.omittedProblems = all.length - limits.maximumProblems

theorem Reports.recordProblem {all : List TrackedFileEnumerationProblem} {state : Traversal}
    (reports : Reports limits all state) (problem : TrackedFileEnumerationProblem) :
    Reports limits (all ++ [problem]) (recordProblem limits problem state) := by
  have kept : state.problems.length = min limits.maximumProblems all.length := by
    rw [reports.problems, length_take]
  unfold FilesystemFallback.recordProblem
  split_ifs with room
  · have below : all.length < limits.maximumProblems := by omega
    refine ⟨?_, ?_⟩
    · show state.problems ++ [problem] = _
      rw [reports.problems, take_of_length_le (Nat.le_of_lt below),
        take_of_length_le (by rw [length_append]; exact below)]
    · show state.omittedProblems = _
      rw [reports.omittedProblems, length_append, length_singleton]
      omega
  · have full : limits.maximumProblems ≤ all.length := by omega
    refine ⟨?_, ?_⟩
    · show state.problems = _
      rw [reports.problems, take_append_of_le_length full]
    · show state.omittedProblems + 1 = _
      rw [reports.omittedProblems, length_append, length_singleton]
      omega

variable (repository) in
def filesOf (children : List RelativePath) : List RelativePath :=
  children.filter fun child => fateOf repository child = .ok .file

variable (repository) in
def directoriesOf (children : List RelativePath) : List RelativePath :=
  children.filter fun child => fateOf repository child = .ok .directory

variable (repository) in
def problemOf (child : RelativePath) : Option TrackedFileEnumerationProblem :=
  match fateOf repository child with
  | .ok (.problem code) => some ⟨code, child⟩
  | _ => none

variable (repository) in
def problemsOf (children : List RelativePath) : List TrackedFileEnumerationProblem :=
  children.filterMap (problemOf repository)

variable (limits repository) in
/-- What the loop over some children leaves behind. -/
structure Visits (depth : Nat) (children : List RelativePath)
    (listing out : Listing) : Prop where
  decided : ∀ child ∈ children, ∃ fate, fateOf repository child = .ok fate
  paths : out.state.paths = listing.state.paths ++ filesOf repository children
  childDirectories : out.childDirectories = listing.childDirectories ++
    (directoriesOf repository children).map fun child => ⟨depth + 1, child⟩
  pending : out.state.pending = listing.state.pending
  directories : out.state.directories = listing.state.directories
  reports : ∀ all, Reports limits all listing.state →
    Reports limits (all ++ problemsOf repository children) out.state

variable {listing out : Listing} {depth : Nat}

theorem admitChild_visits {child : RelativePath}
    {fate : Fate} (decided : fateOf repository child = .ok fate)
    (admitted : admitChild limits depth child listing fate = .ok out) :
    Visits limits repository depth [child] listing out := by
  have known : ∀ other ∈ [child], ∃ fate, fateOf repository other = .ok fate :=
    forall_mem_singleton.mpr ⟨fate, decided⟩
  cases fate with
  | git =>
    cases admitted
    refine ⟨known, ?_, ?_, rfl, rfl, ?_⟩ <;>
      simp [filesOf, directoriesOf, problemsOf, problemOf, decided]
  | problem code =>
    cases admitted
    refine ⟨known, ?_, ?_, ?_, ?_, ?_⟩
    · simp [filesOf, decided]
    · simp [directoriesOf, decided]
    · exact recordProblem_pending _ _
    · exact recordProblem_directories _ _
    · intro all reports
      rw [show problemsOf repository [child] = [⟨code, child⟩] by
        simp [problemsOf, problemOf, decided]]
      exact reports.recordProblem _
  | directory =>
    cases admitted
    refine ⟨known, ?_, ?_, rfl, rfl, ?_⟩ <;>
      simp [filesOf, directoriesOf, problemsOf, problemOf, decided]
  | file =>
    unfold admitChild at admitted
    split_ifs at admitted with full
    cases admitted
    refine ⟨known, ?_, ?_, rfl, rfl, ?_⟩
    · simp [filesOf, decided]
    · simp [directoriesOf, decided]
    · intro all reports
      rw [show problemsOf repository [child] = [] by
        simp [problemsOf, problemOf, decided], append_nil]
      exact ⟨reports.problems, reports.omittedProblems⟩

theorem Visits.trans {first second : List RelativePath}
    {listing middle out : Listing} (left : Visits limits repository depth first listing middle)
    (right : Visits limits repository depth second middle out) :
    Visits limits repository depth (first ++ second) listing out where
  decided := forall_mem_append.mpr ⟨left.decided, right.decided⟩
  paths := by
    rw [right.paths, left.paths, append_assoc, filesOf, filesOf, filesOf, filter_append]
  childDirectories := by
    rw [right.childDirectories, left.childDirectories, append_assoc, directoriesOf,
      directoriesOf, directoriesOf, filter_append, map_append]
  pending := right.pending.trans left.pending
  directories := right.directories.trans left.directories
  reports all reports := by
    have both := right.reports _ (left.reports all reports)
    rw [append_assoc, problemsOf, problemsOf, ← filterMap_append] at both
    exact both

theorem visitChildren_visits {children : List RelativePath}
    (visited : visitChildren limits repository depth children listing = .ok out) :
    Visits limits repository depth children listing out := by
  induction children generalizing listing with
  | nil =>
    cases visited
    refine ⟨forall_mem_nil _, ?_, ?_, rfl, rfl, ?_⟩ <;>
      simp [filesOf, directoriesOf, problemsOf]
  | cons child rest ih =>
    rw [visitChildren] at visited
    split at visited
    · cases visited
    · next fate decided =>
        rcases bind_eq_ok.mp visited with ⟨middle, admitted, visited⟩
        exact (admitChild_visits decided admitted).trans (ih visited)

variable (repository) in
/-- Why the directory of a round is not expanded. -/
inductive Skips (state : Traversal) (path : RelativePath) : String → Prop
  | unread {failure : RepositoryFailure} {code : String}
      (failed : repository.readDirectory path = .error failure)
      (eligible : fallbackEligible failure = some code) : Skips state path code
  | repeated {directory : ReadOnlyRepositoryDirectory}
      (read : repository.readDirectory path = .ok directory)
      (known : identityText directory.identity ∈ state.directories) :
      Skips state path "DIRECTORY_IDENTITY_REPEATED"

variable (limits repository) in
/-- What a round does: it records why its directory is skipped, or expands it. -/
inductive Rounds (current : PendingDirectory) (state : Traversal) : Traversal → Prop
  | skips {code : String} (why : Skips repository state current.path code) :
      Rounds current state (recordProblem limits ⟨code, current.path⟩ state)
  | expands {directory : ReadOnlyRepositoryDirectory} {listing : Listing}
      (read : repository.readDirectory current.path = .ok directory)
      (fresh : identityText directory.identity ∉ state.directories)
      (visits : Visits limits repository current.depth directory.entries
        ⟨{ state with
          directories := state.directories ++ [identityText directory.identity] }, []⟩ listing) :
      Rounds current state
        { listing.state with pending := listing.childDirectories ++ listing.state.pending }

variable {state next : Traversal} {current : PendingDirectory}

theorem round_rounds (ran : round limits repository current state = .ok next) :
    state.directories.length < limits.maximumDirectories ∧
      Rounds limits repository current state next := by
  unfold round at ran
  split_ifs at ran with limited
  refine ⟨Nat.lt_of_not_le fun full => limited (.inl full), ?_⟩
  split at ran
  · next failure failed =>
      split at ran
      · next code eligible =>
          cases ran
          exact .skips (.unread failed eligible)
      · cases ran
  · next directory read =>
      unfold expand at ran
      split_ifs at ran with known
      · cases ran
        exact .skips (.repeated read known)
      · rcases bind_eq_ok.mp ran with ⟨listing, visited, ran⟩
        cases ran
        exact .expands read known (visitChildren_visits visited)

/-- A round records an identity, or it leaves the stack as it is. -/
theorem Rounds.progress (rounds : Rounds limits repository current state next) :
    next.directories.length = state.directories.length + 1 ∨
      next.directories = state.directories ∧ next.pending = state.pending := by
  cases rounds with
  | skips why => exact .inr ⟨recordProblem_directories _ _, recordProblem_pending _ _⟩
  | expands read fresh visits =>
    refine .inl ?_
    show _ = _
    rw [visits.directories, length_append, length_singleton]

/-! ### The loop -/

variable (limits repository)

set_option linter.unusedVariables false in
def traverse (state : Traversal) : Except Failure Traversal :=
  match pending : state.pending with
  | [] => .ok state
  | current :: rest =>
    match ran : round limits repository current { state with pending := rest } with
    | .error failure => .error failure
    | .ok next => traverse next
termination_by (limits.maximumDirectories - state.directories.length, state.pending.length)
decreasing_by
  rcases round_rounds ran with ⟨room, rounds⟩
  rcases rounds.progress with more | ⟨same, pops⟩
  · refine Prod.Lex.left _ _ ?_
    simp only at room more
    omega
  · rw [same, pops, pending]
    exact Prod.Lex.right _ (Nat.lt_succ_self _)

def compareProblems (collation : Collation) (left right : TrackedFileEnumerationProblem) :
    Ordering :=
  if left.path = right.path then collation.localeCompare (js left.code) (js right.code)
  else collation.localeCompare left.path right.path

def filesystemFallback (collation : Collation) (reason : TrackedFileEnumerationReason) :
    Except Failure TrackedFileEnumerationResult := do
  let state ← traverse limits repository start
  return {
    certainty := .allFilesNotTracked
    limits
    omittedProblems := state.omittedProblems
    paths := sortBy compareUnits state.paths
    problems := sortBy (compareProblems collation) state.problems
    reason
    source := .filesystemFallback }

end FilesystemFallback

end AgentContextLint
