import AgentContextLint.Evidence.ResolutionAgreement

/-!
# Agreement of the facade with the platform

Every operation of the facade describes one node: the one it resolved. `inspect` gives its
metadata, `readDirectory` its names (`readDirectory_reads`) and `readFile` its bytes
(`readFile_reads`). `agrees_with_platform` puts them together with the end of the loop.
-/

namespace AgentContextLint.ReadOnlyFacade

open Utf16 Utf8 PosixTree StatefulRuns List RepositoryPath

variable {ν : Type} {host : Host ν} {facade : Facade} {path : RelativePath}
  {value : Text} {target : AbsolutePath} {out : List Text} {name : Text}

/-- How every operation begins: the text is a canonical path, and it is resolved. -/
theorem yields_resolve_bind {α : Type} {rest : RelativePath → ResolvedEntry → Operation α} {a : α}
    (ran : Yields (do
      checkpoint host
      let normalized ← normalizedRelativePath facade.limits value
      assertRoot host facade
      let resolved ← resolve host facade normalized
      rest normalized resolved) a) :
    isRepositoryRelativePath value = true ∧
      ∃ resolved, Yields (resolve host facade value) resolved ∧ Yields (rest value resolved) a := by
  rcases yields_of_bind ran with ⟨_, ran⟩
  rcases yields_bind ran with ⟨normalized, validated, ran⟩
  rcases yields_normalizedRelativePath validated with ⟨same, canonical⟩
  rw [same] at ran canonical
  rcases yields_of_bind ran with ⟨_, ran⟩
  exact ⟨canonical, yields_bind ran⟩

theorem inspect_reads {entry : ReadOnlyRepositoryEntry}
    (ran : Yields (inspect host facade value) entry) :
    ∃ resolved y, Yields (resolve host facade value) resolved ∧
      Reading host facade resolved value y ∧ Describes host value y entry := by
  rcases yields_resolve_bind ran with ⟨canonical, resolved, reached, ran⟩
  rcases yields_of_bind ran with ⟨_, ran⟩
  rcases yields_bind ran with ⟨_, supported, ran⟩
  rcases yields_of_bind ran with ⟨_, ran⟩
  rcases yields_of_bind ran with ⟨_, ran⟩
  have plain : resolved.stats.type ≠ .symbolicLink := by
    intro link
    rcases yields_assertSupportedType supported with directory | file
    · cases link.symm.trans directory
    · cases link.symm.trans file
  rcases resolve_reading canonical reached plain with ⟨y, reading⟩
  exact ⟨resolved, y, reached, reading, (reading.describes ran).1⟩

/-! ## Directories -/

theorem yields_validateDirectoryName {name out : Text}
    (ran : Yields (validateDirectoryName path name) out) : out = name ∧ Named name := by
  rcases yields_stopIf_bind ran with ⟨valid, ran⟩
  have same := yields_pure ran
  exact ⟨same.symm, fun nil => valid (.inl nil), fun dot => valid (.inr (.inl dot)),
    fun slash => valid (.inr (.inr (.inr (.inl slash))))⟩

theorem yields_readNames {names : List Name} (ran : Yields (readNames host facade path names) out) :
    out = names.map decodeLossy ∧ ∀ name ∈ out, Named name := by
  induction names generalizing out with
  | nil =>
    rcases yields_of_bind ran with ⟨_, ran⟩
    cases yields_pure ran
    exact ⟨rfl, forall_mem_nil _⟩
  | cons first rest ih =>
    rcases yields_bind ran with ⟨name, called, ran⟩
    cases yields_call called
    rcases yields_of_bind ran with ⟨_, ran⟩
    rcases yields_bind ran with ⟨name, validated, ran⟩
    rcases yields_validateDirectoryName validated with ⟨rfl, named⟩
    rcases yields_bind ran with ⟨later, read, ran⟩
    cases yields_pure ran
    rcases ih read with ⟨rfl, all⟩
    exact ⟨rfl, forall_mem_cons.mpr ⟨named, all⟩⟩

theorem yields_mapM_validateDirectoryName {names out : List Text}
    (ran : Yields (names.mapM (validateDirectoryName path)) out) : out = names := by
  rw [yields_mapM (fun name _ out ran => (yields_validateDirectoryName ran).1) ran]
  exact map_id _

theorem yields_readDirectoryNames (ran : Yields (readDirectoryNames host facade target path) out) :
    ∃ handle, host.openDirectory target = .ok handle ∧
      out = (host.names handle).map decodeLossy ∧ ∀ name ∈ out, Named name := by
  rcases yields_bind ran with ⟨handle, called, ran⟩
  rcases yields_bind ran with ⟨names, read, ran⟩
  rcases yields_of_bind ran with ⟨_, ran⟩
  cases yields_pure ran
  exact ⟨handle, yields_call called, yields_readNames read⟩

def childText (directory : RelativePath) (name : Text) : RelativePath :=
  if directory = RepositoryPath.repositoryRoot then name else directory ++ 0x2f :: name

theorem pathSegments_named (named : Named name) : pathSegments name = [name] := by
  have single := pathSegments_joinSegments (forall_mem_singleton.mpr named)
    (cons_ne_nil name [])
  rw [joinSegments, intercalate_singleton] at single
  exact single

/-- A text of named segments is its own canonical form, if it has one. -/
theorem canonicalize_eq_self {text result : Text}
    (named : ∀ segment ∈ pathSegments text, Named segment)
    (canonical : canonicalizeRepositoryRelativePath text .posix = .ok result) : result = text := by
  have nonempty := pathSegments_ne_nil text
  have kept := keptSegments_joinSegments named nonempty
  rw [joinSegments_pathSegments] at kept
  rw [(canonicalize_eq_ok.mp canonical).2, kept, if_neg nonempty, joinSegments_pathSegments]

theorem yields_childPath {directory out : RelativePath}
    (canonical : isRepositoryRelativePath directory = true) (named : Named name)
    (ran : Yields (childPath directory name) out) : out = childText directory name := by
  have segments : ∀ segment ∈ pathSegments (childText directory name), Named segment := by
    unfold childText
    split_ifs with root
    · rw [pathSegments_named named]
      exact forall_mem_singleton.mpr named
    · rw [pathSegments_append, pathSegments_named named]
      exact forall_mem_append.mpr ⟨named_pathSegments canonical root,
        forall_mem_singleton.mpr named⟩
  unfold childPath at ran
  split at ran
  · exact (not_yields_stop ran).elim
  · next path made =>
      rw [← yields_pure ran]
      exact canonicalize_eq_self segments made

theorem yields_mapM_childPath {directory : RelativePath} {names : List Text}
    {out : List RelativePath} (canonical : isRepositoryRelativePath directory = true)
    (named : ∀ name ∈ names, Named name) (ran : Yields (names.mapM (childPath directory)) out) :
    out = names.map (childText directory) :=
  yields_mapM (fun name member _ ran => yields_childPath canonical (named name member) ran) ran

def childrenOf (host : Host ν) (directory : RelativePath) (y : ν) : List RelativePath :=
  (Sorting.sortBy compareUnits ((host.names y).map decodeLossy)).map (childText directory)

/-- The directory that a path names. -/
theorem openDirectory_eq {y handle : ν}
    (found : host.entry target = some y) (plain : ∀ link, host.tree.kind y ≠ .link link)
    (opened : host.openDirectory target = .ok handle) : handle = y := by
  have walked := (Option.filter_eq_some_iff.mp (outcome_eq_ok opened)).1
  exact (reaches_of_walk walked).unique (reaches_of_entry found plain)

theorem readDirectory_reads {directory : ReadOnlyRepositoryDirectory}
    (ran : Yields (readDirectory host facade value) directory) :
    ∃ resolved y, Yields (resolve host facade value) resolved ∧
      Reading host facade resolved value y ∧
      Describes host value y directory.toReadOnlyRepositoryEntry ∧
      directory.entries = childrenOf host value y ∧
      ∀ name ∈ (host.names y).map decodeLossy, Named name := by
  rcases yields_resolve_bind ran with ⟨canonical, resolved, reached, ran⟩
  rcases yields_stopIf_bind ran with ⟨isDirectory, ran⟩
  rcases yields_of_bind ran with ⟨_, ran⟩
  rcases yields_bind ran with ⟨names, read, ran⟩
  rcases yields_bind ran with ⟨valid, validated, ran⟩
  rcases yields_bind ran with ⟨entries, made, ran⟩
  rcases yields_of_bind ran with ⟨_, ran⟩
  rcases yields_of_bind ran with ⟨_, ran⟩
  rcases yields_bind ran with ⟨base, based, ran⟩
  have result := yields_pure ran
  have type := not_not.mp isDirectory
  have plain : resolved.stats.type ≠ .symbolicLink := by
    rw [type]
    exact StatsType.noConfusion
  rcases resolve_reading canonical reached plain with ⟨y, reading⟩
  have describes := (reading.describes based).1
  rw [reading.stats] at type plain
  have kind := statsOf_directory.mp type
  rcases yields_readDirectoryNames read with ⟨handle, opened, rfl, named⟩
  cases openDirectory_eq reading.entry
    (fun link isLink => plain (statsOf_symbolicLink.mpr ⟨link, isLink⟩)) opened
  cases yields_mapM_validateDirectoryName validated
  have children := yields_mapM_childPath canonical
    (fun name member => named name ((Sorting.mem_sortBy compareUnits).mp member)) made
  have whole : base.type = .directory := by
    cases baseType : base.type with
    | directory => rfl
    | file => cases kind.symm.trans (describes.file baseType).1
  rw [← result]
  refine ⟨resolved, y, reached, reading, ?_, children, named⟩
  exact ⟨describes.identity, describes.path, fun _ => describes.directory whole,
    fun file => by cases file⟩

/-! ## Files -/

/-- What a file says of a node. -/
structure Holds (host : Host ν) (path : RelativePath) (y : ν)
    (file : ReadOnlyRepositoryFile) : Prop where
  identity : file.identity = identityOf (host.statsOf y)
  path : file.path = path
  kind : host.tree.kind y = .file
  size : file.size = (host.attributes y).size
  bytes : file.bytes = host.content y

/-- The loop fills the buffer with the content, if the content has the expected size. -/
theorem yields_readLoop {handle : ν} {expectedBytes rounds : Nat} {buffer out : List UInt8}
    (room : expectedBytes + 1 ≤ rounds + buffer.length) (fits : buffer.length ≤ expectedBytes)
    (front : buffer <+: host.content handle)
    (ran : Yields (readLoop host facade handle expectedBytes path rounds buffer) out) :
    out = host.content handle ∧ out.length = expectedBytes := by
  induction rounds generalizing buffer with
  | zero => omega
  | succ rounds ih =>
    rw [readLoop, if_pos (Nat.lt_succ_of_le fits)] at ran
    rcases front with ⟨rest, whole⟩
    rcases yields_bind ran with ⟨fragment, read, ran⟩
    rcases yields_bind read with ⟨usage, _, read⟩
    have returned := yields_call read
    rw [← whole, drop_left, Except.ok.injEq] at returned
    split_ifs at ran with ended
    · rcases yields_stopIf_bind ran with ⟨complete, ran⟩
      have none : rest = [] := by
        have length := congrArg length (returned.trans ended)
        rw [length_take, length_nil] at length
        apply eq_nil_of_length_eq_zero
        omega
      rw [← yields_pure ran, ← whole, none, append_nil]
      exact ⟨rfl, not_not.mp complete⟩
    · rcases yields_stopIf_bind ran with ⟨small, ran⟩
      have grows := length_pos_iff.mpr ended
      apply ih _ _ _ ran
      · rw [length_append]
        omega
      · rw [length_append]
        omega
      · rw [← whole, ← returned]
        exact (prefix_append_right_inj buffer).mpr ( take_prefix _ _)

theorem yields_readStableFile {resolved : ResolvedEntry} {expectedBytes : Nat} {y : ν}
    {bytes : List UInt8} (found : host.entry resolved.absolutePath = some y)
    (ran : Yields (readStableFile host facade resolved expectedBytes) bytes) :
    bytes = host.content y ∧ bytes.length = expectedBytes := by
  rcases yields_bind ran with ⟨handle, opened, ran⟩
  rcases yields_of_bind ran with ⟨_, ran⟩
  rcases yields_of_bind ran with ⟨_, ran⟩
  rcases yields_of_bind ran with ⟨_, ran⟩
  rcases yields_bind ran with ⟨content, filled, ran⟩
  rcases yields_of_bind ran with ⟨_, ran⟩
  rcases yields_of_bind ran with ⟨_, ran⟩
  rcases yields_of_bind ran with ⟨_, ran⟩
  rcases yields_of_bind ran with ⟨_, ran⟩
  have result := yields_pure ran
  have located := (Option.filter_eq_some_iff.mp (outcome_eq_ok (yields_call opened))).1
  cases found.symm.trans located
  have read := yields_readLoop (Nat.le_refl _) (Nat.zero_le _) nil_prefix filled
  rw [take_of_length_le (Nat.le_of_eq read.2)] at result
  rw [← result]
  exact read

theorem readFile_reads {file : ReadOnlyRepositoryFile}
    (ran : Yields (readFile host facade value) file) :
    ∃ resolved y, Yields (resolve host facade value) resolved ∧
      Reading host facade resolved value y ∧ Holds host value y file := by
  rcases yields_resolve_bind ran with ⟨canonical, resolved, reached, ran⟩
  rcases yields_stopIf_bind ran with ⟨isFile, ran⟩
  rcases yields_of_bind ran with ⟨_, ran⟩
  rcases yields_bind ran with ⟨size, bounded, ran⟩
  rcases yields_of_bind ran with ⟨_, ran⟩
  rcases yields_of_bind ran with ⟨_, ran⟩
  rcases yields_bind ran with ⟨bytes, read, ran⟩
  rcases yields_of_bind ran with ⟨_, ran⟩
  have type := not_not.mp isFile
  have plain : resolved.stats.type ≠ .symbolicLink := by
    rw [type]
    exact StatsType.noConfusion
  rcases resolve_reading canonical reached plain with ⟨y, reading⟩
  rcases yields_stopIf_bind bounded with ⟨_, bounded⟩
  have measured := yields_pure bounded
  rcases yields_readStableFile reading.entry read with ⟨content, length⟩
  rw [reading.stats] at type measured
  rw [← yields_pure ran]
  refine ⟨resolved, y, reached, reading, ?_, rfl, statsOf_file.mp type, ?_, content⟩
  · rw [reading.stats]
  · exact length.trans measured.symm

/-! ## Agreement -/

/-- The resolution ends within the rounds of its limits. A success of an operation describes the
node that one resolution within the limits found, and where the lexical reading of every link
followed is right, `root/path` leads the platform to that node. -/
theorem agrees_with_platform (host : Host ν) (facade : Facade) (path : Text) :
    Avoids (resolve host facade path) .outOfFuel ∧
      (∀ entry, Yields (inspect host facade path) entry →
        ∃ resolved y, Yields (resolve host facade path) resolved ∧
          Reading host facade resolved path y ∧ Describes host path y entry) ∧
      (∀ directory, Yields (readDirectory host facade path) directory →
        ∃ resolved y, Yields (resolve host facade path) resolved ∧
          Reading host facade resolved path y ∧
          Describes host path y directory.toReadOnlyRepositoryEntry ∧
          directory.entries = childrenOf host path y) ∧
      (∀ file, Yields (readFile host facade path) file →
        ∃ resolved y, Yields (resolve host facade path) resolved ∧
          Reading host facade resolved path y ∧ Holds host path y file) := by
  refine ⟨resolve_ends path, fun _ => inspect_reads, fun directory ran => ?_,
    fun _ => readFile_reads⟩
  obtain ⟨resolved, y, reached, reading, describes, entries, _⟩ := readDirectory_reads ran
  exact ⟨resolved, y, reached, reading, describes, entries⟩

/-! ## A link whose target goes through a link -/

/-- The link `l` has the target `d/../x`, and `d` is a link to `b/c`. There are two nodes `x`:
5 at the top and 6 in `b`. -/
def linkedTree : FileTree Nat where
  top := 0
  kind
    | 0 | 1 | 2 => .directory
    | 3 => .link (encode (js "b/c"))
    | 4 => .link (encode (js "d/../x"))
    | _ => .file
  search _ := true
  child
    | 0, name => [(encode (js "b"), 1), (encode (js "d"), 3), (encode (js "l"), 4),
        (encode (js "x"), 5)].lookup name
    | 1, name => [(encode (js "c"), 2), (encode (js "x"), 6)].lookup name
    | _, _ => none
  parent y := if y = 2 then 1 else 0
  top_directory := rfl

def linkedHost : Host Nat where
  tree := linkedTree
  attributes y := ⟨1, y, 0, 0, 1, 0, 0⟩
  content _ := []
  names _ := []
  symlinkMaximum := 40
  causeCode _ := none
  fails _ := none
  fragment _ := 0
  stops _ := none

def linkedFacade : Facade :=
  ⟨defaultLimits, [], identityOf (linkedHost.statsOf 0), forall_mem_nil _⟩

/-- Through the link `d`, whose lexical reading is right, the facade finds what the platform does. -/
theorem agrees_with_platform_straight : StraightLink linkedHost [js "d"] ∧
    ∃ entry y, Yields (inspect linkedHost linkedFacade (js "d")) entry ∧
      Describes linkedHost (js "d") y entry ∧ PlatformReaches linkedHost linkedFacade (js "d") y := by
  constructor
  · intro y link found kind
    cases Option.some.inj (found.symm.trans (show linkedHost.entry [js "d"] = some 3 by rfl))
    cases kind
    refine ⟨⟨js "b/c", by decide +kernel⟩, ?_⟩
    rw [show segments (encode (js "b/c")) = [encode (js "b"), encode (js "c")] by decide +kernel,
      Straight, if_neg (by decide +kernel), if_neg (by decide +kernel), Straight,
      if_neg (by decide +kernel), if_neg (by decide +kernel)]
    trivial
  · have ran : ∃ entry, Yields (inspect linkedHost linkedFacade (js "d")) entry ∧
        entry.type = .directory ∧ entry.identity = identityOf (linkedHost.statsOf 2) :=
      ⟨_, ⟨⟨0, 0, 0, 0⟩, _, rfl⟩, rfl, rfl⟩
    rcases ran with ⟨entry, ran, directory, identity⟩
    rcases (agrees_with_platform linkedHost linkedFacade (js "d")).2.1 entry ran with
      ⟨_, y, _, _, describes⟩
    have kind := (describes.directory directory).1
    have same := identity.symm.trans describes.identity
    have only : y = 2 := by
      rcases y with _ | _ | _ | _ | _ | y
      · exact absurd same (by decide +kernel)
      · exact absurd same (by decide +kernel)
      · rfl
      all_goals cases kind
    cases only
    have walked : walk linkedTree 2 0 [encode (js "d")] = some 2 := by decide +kernel
    exact ⟨entry, 2, ran, describes, reaches_of_walk walked⟩

/-- The facade finds the `x` at the top, and the platform the one in `b`. -/
theorem lexicalTarget_not_reached :
    ∃ entry, Yields (inspect linkedHost linkedFacade (js "l")) entry ∧
      ∀ y, PlatformReaches linkedHost linkedFacade (js "l") y →
        ¬ Describes linkedHost (js "l") y entry := by
  refine ⟨_, ⟨⟨0, 0, 0, 0⟩, _, rfl⟩, fun y reaches describes => ?_⟩
  have walked : walk linkedTree 2 0 [encode (js "l")] = some 6 := by decide +kernel
  cases (reaches_of_walk walked).unique reaches
  exact absurd describes.identity (by decide +kernel)

end AgentContextLint.ReadOnlyFacade
