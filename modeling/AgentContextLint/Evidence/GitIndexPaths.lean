import AgentContextLint.Evidence.TrackedFileEnumeration
import AgentContextLint.Lib.PrefixOrder

/-!
# The paths of an accepted index

The loop over the entries is taken apart into `storedEntries`, which reads the bytes alone, and
`admitEntries`, which checks what was read (`readEntries_eq_ok`). `Admitted` is the invariant of
the checks: the paths so far are increasing in their bytes, none is directly in front of a path
below it, and no two are equal up to lower-casing.

The check against the path before does not see a path further back, as `safePaths_iff_not_hidden`
says exactly.
-/

namespace AgentContextLint.TrackedFileEnumeration

open Utf16 RepositoryPath Metered List
open Utf8 (encode)
open ByteFields (be16 be32)
open Sorting (mem_sortBy sortBy)

variable {left right : List UInt8}

@[simp] theorem failIf_eq_ok {condition : Bool} {kind : IndexFailure} {out : Unit} :
    failIf condition kind = .ok out ↔ condition = false := by
  cases condition <;> simp [failIf]

/-! ## Names in byte order -/

theorem compareBytes_neg_iff : compareBytes left right < 0 ↔ left < right := by
  induction left generalizing right with
  | nil => cases right <;> simp [compareBytes]; omega
  | cons l left ih =>
    cases right with
    | nil =>
      simp only [compareBytes, length_cons, length_nil, not_lt_nil, iff_false]
      omega
    | cons r right =>
      rw [compareBytes, cons_lt_cons_iff, UInt8.lt_iff_toNat_lt]
      split_ifs with differ
      · have apart : l ≠ r := by rintro rfl; simp at differ
        simp only [apart, false_and, or_false]
        omega
      · obtain rfl : l = r := UInt8.toNat_inj.mp (by omega)
        simp [ih]

theorem compareBytes_eq_zero_iff : compareBytes left right = 0 ↔ left = right := by
  induction left generalizing right with
  | nil => cases right <;> simp [compareBytes]; omega
  | cons l left ih =>
    cases right with
    | nil => simp [compareBytes]; omega
    | cons r right =>
      rw [compareBytes, cons.injEq]
      split_ifs with differ
      · have apart : l ≠ r := by rintro rfl; simp at differ
        simp only [apart, false_and, iff_false]
        exact differ
      · obtain rfl : l = r := UInt8.toNat_inj.mp (by omega)
        simp [ih]

/-! ## Paths behind names -/

/-- What `pathValue` establishes of a name. -/
structure PathName (raw : List UInt8) (limits : TrackedFileEnumerationLimits)
    (path : RelativePath) : Prop where
  short : raw.length ≤ 16384
  decoded : Utf8.decode raw = some path
  nonempty : path ≠ []
  safe : containsUnsafePathText path = false
  noSlash : path.getLast? ≠ some 0x2f
  noGit : js ".git" ∉ pathSegments path
  noBackslash : (0x5c : CodeUnit) ∉ path
  canonical : canonicalizeRepositoryRelativePath path .posix = .ok path
  notRoot : path ≠ repositoryRoot
  depth : (pathSegments path).length ≤ limits.maximumDepth

theorem pathValue_eq_ok {raw : List UInt8} {limits : TrackedFileEnumerationLimits}
    {path : RelativePath} : pathValue raw limits = .ok path ↔ PathName raw limits path := by
  constructor
  · intro ok
    simp only [pathValue, check_bind_eq_ok, failIf_eq_ok, decide_eq_false_iff_not] at ok
    obtain ⟨short, ok⟩ := ok
    split at ok
    · cases ok
    · rename_i text decoded
      simp only [check_bind_eq_ok, failIf_eq_ok] at ok
      obtain ⟨checks, ok⟩ := ok
      split at ok
      · cases ok
      · rename_i canonical canonicalized
        simp only [check_bind_eq_ok, failIf_eq_ok, pure, Except.pure, Except.ok.injEq] at ok
        obtain ⟨same, depth, rfl⟩ := ok
        simp only [Bool.or_eq_false_iff, bne_eq_false_iff_eq, beq_eq_false_iff_ne] at same checks
        obtain ⟨rfl, notRoot⟩ := same
        obtain ⟨⟨⟨⟨nonempty, safe⟩, noSlash⟩, noGit⟩, noBackslash⟩ := checks
        exact {
          short := by omega
          decoded := decoded
          nonempty := by simpa using nonempty
          safe := safe
          noSlash := noSlash
          noGit := by simpa using noGit
          noBackslash := by simpa using noBackslash
          canonical := canonicalized
          notRoot := notRoot
          depth := by simpa using depth }
  · intro name
    have short : ¬ 16384 < raw.length := by have := name.short; omega
    have depth : ¬ limits.maximumDepth < (pathSegments path).length := by have := name.depth; omega
    simp [pathValue, failIf, name.decoded, name.nonempty, name.safe, name.noSlash, name.noGit,
      name.noBackslash, name.canonical, name.notRoot, short, depth, bind, Except.bind, pure,
      Except.pure]

section PathName

variable {raw : List UInt8} {limits : TrackedFileEnumerationLimits} {path : RelativePath}

section

variable (name : PathName raw limits path)

include name

theorem PathName.wellFormed : wellFormed path = true :=
  (Utf8.encode_decode name.decoded).1

theorem PathName.encode : encode path = raw :=
  (Utf8.encode_decode name.decoded).2

theorem PathName.ne_nil : raw ≠ [] := by
  rintro rfl
  have decoded := name.decoded
  exact name.nonempty (Option.some.inj decoded).symm

end

end PathName

/-! ## The entries -/

section LowerCase

variable (lowerCase : Text → Text) (limits : TrackedFileEnumerationLimits)

def IndexState.accept (state : IndexState) (read : EntryRead) (value : RelativePath) :
    IndexState where
  previousRaw := read.raw
  previousStage := read.stage
  paths := if value ∈ state.paths then state.paths else state.paths ++ [value]
  entries := state.entries ++ [entryOf read value]
  lower :=
    if read.stage = 0 ∨ value ∉ state.paths then state.lower.set (lowerCase value) value
    else state.lower
  previousUnique := if value ∈ state.paths then state.previousUnique else some value

/-- What is checked of an entry. -/
structure Admissible (index : Nat) (state : IndexState) (read : EntryRead)
    (value : RelativePath) : Prop where
  name : PathName read.raw limits value
  ordered : 0 < index → state.previousRaw < read.raw ∨
    state.previousRaw = read.raw ∧ state.previousStage < read.stage
  alone : state.previousRaw = read.raw → state.previousStage ≠ 0
  cased : read.stage = 0 ∨ value ∉ state.paths →
    ∀ other, state.lower.get? (lowerCase value) = some other → other = value
  apart : value ∉ state.paths → ∀ previous, state.previousUnique = some previous →
    ¬ previous ++ [0x2f] <+: value

variable {lowerCase limits} {index : Nat} {state next : IndexState} {read : EntryRead}
  {value : RelativePath}

theorem failIf_ok (kind : IndexFailure) : failIf false kind = .ok () := rfl

theorem admitPath_eq_ok : admitPath lowerCase read.stage value { state with
      previousRaw := read.raw
      previousStage := read.stage
      entries := state.entries ++ [entryOf read value] } = .ok next ↔
    (read.stage = 0 ∨ value ∉ state.paths →
      ∀ other, state.lower.get? (lowerCase value) = some other → other = value) ∧
    (value ∉ state.paths → ∀ previous, state.previousUnique = some previous →
      ¬ previous ++ [0x2f] <+: value) ∧
    next = state.accept lowerCase read value := by
  have collision : ∀ found : Option RelativePath,
      (found != none && found != some value) = false ↔ ∀ other, found = some other → other = value := by
    rintro (_ | other) <;> simp
  have below : ∀ previous : Option RelativePath,
      (previous.any fun previous => (previous ++ [0x2f]).isPrefixOf value) = false ↔
        ∀ path, previous = some path → ¬ path ++ [0x2f] <+: value := by
    rintro (_ | previous) <;> simp [← isPrefixOf_iff_prefix]
  rw [eq_comm (a := next)]
  unfold admitPath IndexState.accept
  by_cases seen : value ∈ state.paths
  · by_cases zero : read.stage = 0
    · simp [zero, seen, check_bind_eq_ok, failIf_eq_ok, collision, pure, Except.pure]
    · simp [zero, seen, pure, Except.pure]
  · simp [seen, check_bind_eq_ok, failIf_eq_ok, collision, below, pure, Except.pure]

/-- The one inversion of `admitEntry`. -/
theorem admitEntry_eq_ok : admitEntry lowerCase limits index state read = .ok next ↔
    ∃ value, Admissible lowerCase limits index state read value ∧
      next = state.accept lowerCase read value := by
  have order := lt_trichotomy (compareBytes state.previousRaw read.raw) 0
  simp only [admitEntry, bind_eq_ok, exists_const, failIf_eq_ok, pathValue_eq_ok, admitPath_eq_ok,
    Bool.and_eq_false_iff, Bool.or_eq_false_iff, decide_eq_false_iff_not, beq_eq_false_iff_ne]
  constructor
  · rintro ⟨ordered, alone, value, name, cased, apart, rfl⟩
    refine ⟨value, ⟨name, fun later => ?_, fun same => ?_, cased, apart⟩, rfl⟩
    · rw [← compareBytes_neg_iff, ← compareBytes_eq_zero_iff]
      omega
    · rw [← compareBytes_eq_zero_iff] at same
      omega
  · rintro ⟨value, ⟨name, ordered, alone, cased, apart⟩, rfl⟩
    rw [← compareBytes_neg_iff, ← compareBytes_eq_zero_iff] at ordered
    rw [← compareBytes_eq_zero_iff] at alone
    refine ⟨?_, ?_, value, name, cased, apart, rfl⟩ <;> omega

variable (lowerCase limits)

/-- The loop over the entries without the reading of bytes. -/
def admitEntries : (index : Nat) → IndexState → List EntryRead → Except IndexFailure IndexState
  | _, state, [] => .ok state
  | index, state, read :: reads => do
    let state ← admitEntry lowerCase limits index state read
    admitEntries (index + 1) state reads

/-- The loop over the entries without what is checked between them. -/
def storedEntries (format : GitObjectFormat) (version : Nat) (bytes : List UInt8) (contentEnd : Nat) :
    (count offset : Nat) → (previousRaw : List UInt8) → Except IndexFailure (List EntryRead × Nat)
  | 0, offset, _ => .ok ([], offset)
  | count + 1, offset, previousRaw => do
    let read ← readEntry format version bytes contentEnd previousRaw offset
    let (later, stop) ← storedEntries format version bytes contentEnd count read.next read.raw
    return (read :: later, stop)

variable {lowerCase limits} {format : GitObjectFormat} {version contentEnd : Nat}
  {bytes : List UInt8}

theorem readEntries_eq_ok {count index offset stop : Nat} {state final : IndexState} :
    readEntries lowerCase format version bytes contentEnd limits count index offset state =
        .ok (stop, final) ↔
      ∃ reads, storedEntries format version bytes contentEnd count offset state.previousRaw =
          .ok (reads, stop) ∧
        admitEntries lowerCase limits index state reads = .ok final := by
  induction count generalizing index offset state with
  | zero =>
    simp only [readEntries, storedEntries, Except.ok.injEq, Prod.mk.injEq]
    constructor
    · rintro ⟨rfl, rfl⟩
      exact ⟨[], ⟨rfl, rfl⟩, rfl⟩
    · rintro ⟨reads, ⟨rfl, rfl⟩, admitted⟩
      exact ⟨rfl, Except.ok.inj admitted⟩
  | succ count ih =>
    simp only [readEntries, storedEntries, bind_eq_ok, ih, pure, Except.pure, Except.ok.injEq,
      Prod.mk.injEq, Prod.exists]
    constructor
    · rintro ⟨read, stored, admitted, entry, reads, later, rest⟩
      obtain ⟨value, -, rfl⟩ := admitEntry_eq_ok.mp entry
      exact ⟨read :: reads, ⟨read, stored, reads, stop, later, rfl, rfl⟩,
        (bind_eq_ok).mpr ⟨_, entry, rest⟩⟩
    · rintro ⟨_, ⟨read, stored, reads, _, later, rfl, rfl⟩, admitted⟩
      obtain ⟨after, entry, rest⟩ := bind_eq_ok.mp admitted
      obtain ⟨value, -, rfl⟩ := admitEntry_eq_ok.mp entry
      exact ⟨read, stored, _, entry, reads, later, rest⟩

/-! ## The invariant of the checks -/

variable (lowerCase limits)

/-- What holds of the paths behind `index` entries. -/
structure IndexState.Admitted (index : Nat) (state : IndexState) : Prop where
  names : ∀ path ∈ state.paths, PathName (encode path) limits path
  increasing : (state.paths.map encode).Pairwise (· < ·)
  apart : state.paths.IsChain fun first second => ¬ first ++ [0x2f] <+: second
  cased : ∀ path ∈ state.paths, state.lower.get? (lowerCase path) = some path
  initial : index = 0 → state.paths = []
  last : 0 < index → ∃ front last, state.paths = front ++ [last] ∧
    encode last = state.previousRaw ∧ state.previousUnique = some last

theorem admitted_initialIndexState : initialIndexState.Admitted lowerCase limits 0 where
  names := nofun
  increasing := .nil
  apart := .nil
  cased := nofun
  initial _ := rfl
  last later := absurd later (Nat.lt_irrefl 0)

variable {lowerCase limits}

theorem IndexState.Admitted.nodup (admitted : state.Admitted lowerCase limits index) :
    state.paths.Nodup := by
  refine Nodup.of_map encode (admitted.increasing.imp fun less same => ?_)
  exact List.lt_irrefl _ (same ▸ less)

section Step

variable (admitted : state.Admitted lowerCase limits index)
include admitted

variable {path : RelativePath}

theorem IndexState.Admitted.pos_of_mem (member : path ∈ state.paths) : 0 < index := by
  refine Nat.pos_of_ne_zero fun first => ?_
  rw [admitted.initial first] at member
  cases member

theorem IndexState.Admitted.le_previousRaw (member : path ∈ state.paths) :
    encode path < state.previousRaw ∨ encode path = state.previousRaw := by
  obtain ⟨front, last, paths, raw, -⟩ := admitted.last (admitted.pos_of_mem member)
  have increasing := admitted.increasing
  rw [paths, map_append, pairwise_append] at increasing
  rw [paths, mem_append, mem_singleton] at member
  obtain inFront | rfl := member
  · left
    rw [← raw]
    exact increasing.2.2 _ (mem_map_of_mem inFront) _ (by simp)
  · exact .inr raw

variable (admissible : Admissible lowerCase limits index state read value)
include admissible

variable {path : RelativePath}

/-- A path is listed only if it is the one of the entry before. -/
theorem IndexState.Admitted.eq_previousRaw (seen : value ∈ state.paths) :
    state.previousRaw = read.raw := by
  have raw := admissible.name.encode
  obtain less | same := admitted.le_previousRaw seen
  · rw [raw] at less
    obtain more | ⟨same, -⟩ := admissible.ordered (admitted.pos_of_mem seen)
    · exact absurd more (List.lt_asymm less)
    · exact same
  · rw [← same, raw]

/-- A path that is not listed comes behind the listed ones. -/
theorem IndexState.Admitted.lt_raw (fresh : value ∉ state.paths)
    (member : path ∈ state.paths) : encode path < read.raw := by
  have later := admitted.pos_of_mem member
  have less : state.previousRaw < read.raw := by
    obtain less | ⟨same, -⟩ := admissible.ordered later
    · exact less
    · obtain ⟨front, last, paths, raw, -⟩ := admitted.last later
      have inPaths : last ∈ state.paths := by rw [paths]; simp
      have decoded := (admitted.names last inPaths).decoded
      rw [raw, same, admissible.name.decoded] at decoded
      cases decoded
      exact absurd inPaths fresh
  obtain below | same := admitted.le_previousRaw member
  · exact List.lt_trans below less
  · rwa [same]

theorem IndexState.Admitted.cased_admit (member : path ∈ state.paths ∨ path = value) :
    (state.accept lowerCase read value).lower.get? (lowerCase path) = some path := by
  unfold IndexState.accept
  dsimp only
  split_ifs with recorded
  · rw [OrderedMap.get?_set]
    split_ifs with folded
    · obtain inPaths | rfl := member
      · have listed := admitted.cased path inPaths
        rw [← folded] at listed
        rw [admissible.cased recorded path listed]
      · rfl
    · obtain inPaths | rfl := member
      · exact admitted.cased path inPaths
      · exact absurd rfl folded
  · obtain inPaths | rfl := member
    · exact admitted.cased path inPaths
    · exact admitted.cased path (by simpa using (not_or.mp recorded).2)

theorem IndexState.Admitted.accept :
    (state.accept lowerCase read value).Admitted lowerCase limits (index + 1) := by
  have raw := admissible.name.encode
  have own : PathName (encode value) limits value := raw ▸ admissible.name
  by_cases seen : value ∈ state.paths
  · obtain ⟨front, last, paths, lastRaw, previousUnique⟩ :=
      admitted.last (admitted.pos_of_mem seen)
    have same : (state.accept lowerCase read value).paths = state.paths := if_pos seen
    refine ⟨?_, ?_, ?_, ?_, nofun, fun _ => ⟨front, last, ?_, ?_, ?_⟩⟩ <;> try rw [same]
    · exact admitted.names
    · exact admitted.increasing
    · exact admitted.apart
    · exact fun path member => admitted.cased_admit admissible (.inl member)
    · exact paths
    · exact lastRaw.trans (admitted.eq_previousRaw admissible seen)
    · exact (if_pos seen).trans previousUnique
  · have longer : (state.accept lowerCase read value).paths = state.paths ++ [value] := if_neg seen
    refine ⟨?_, ?_, ?_, ?_, nofun, fun _ => ⟨state.paths, value, longer, raw, if_neg seen⟩⟩ <;>
      rw [longer]
    · simpa only [forall_mem_append, forall_mem_singleton] using ⟨admitted.names, own⟩
    · rw [map_append, pairwise_append]
      refine ⟨admitted.increasing, pairwise_singleton _ _, fun first inPaths second inLast => ?_⟩
      obtain ⟨path, member, rfl⟩ := mem_map.mp inPaths
      obtain rfl : second = encode value := by simpa using inLast
      rw [raw]
      exact admitted.lt_raw admissible seen member
    · rw [isChain_append]
      refine ⟨admitted.apart, isChain_singleton _, fun first isLast second isHead => ?_⟩
      obtain rfl : value = second := by simpa using isHead
      obtain ⟨front, last, paths, -, previousUnique⟩ :=
        admitted.last (admitted.pos_of_mem (mem_of_getLast? isLast))
      obtain rfl : last = first := by simpa [paths] using isLast
      exact admissible.apart seen _ previousUnique
    · intro path member
      exact admitted.cased_admit admissible (by simpa using member)

end Step

variable {reads : List EntryRead}

/-- The checks keep the invariant, and list the names that they see. -/
theorem admitted_of_admitEntries {final : IndexState}
    (admitted : state.Admitted lowerCase limits index)
    (ok : admitEntries lowerCase limits index state reads = .ok final) :
    final.Admitted lowerCase limits (index + reads.length) ∧
      ∀ name, name ∈ final.paths.map encode ↔
        name ∈ state.paths.map encode ∨ name ∈ reads.map (·.raw) := by
  induction reads generalizing index state with
  | nil =>
    obtain rfl := Except.ok.inj ok
    exact ⟨admitted, by simp⟩
  | cons read reads ih =>
    obtain ⟨after, entry, rest⟩ := bind_eq_ok.mp ok
    obtain ⟨value, admissible, rfl⟩ := admitEntry_eq_ok.mp entry
    obtain ⟨final, members⟩ := ih (admitted.accept admissible) rest
    refine ⟨by rwa [length_cons, Nat.add_comm reads.length, ← Nat.add_assoc], fun name => ?_⟩
    rw [members, map_cons, mem_cons, ← or_assoc]
    refine or_congr_left ?_
    have raw := admissible.name.encode
    by_cases seen : value ∈ state.paths
    · rw [show (state.accept lowerCase read value).paths = state.paths from if_pos seen]
      refine (or_iff_left_of_imp ?_).symm
      rintro rfl
      exact raw ▸ mem_map_of_mem seen
    · rw [show (state.accept lowerCase read value).paths = state.paths ++ [value] from if_neg seen,
        map_append, mem_append, map_singleton, mem_singleton, raw]

/-! ## The file -/

variable (lowerCase limits)

/-- What `parseCandidate` finds in the bytes that it accepts. -/
structure ParsedFile (bytes : List UInt8) (format : GitObjectFormat) (version count : Nat)
    (reads : List EntryRead) (state : IndexState) : Prop where
  long : indexHeaderBytes + GitObjectFormat.oidBytes format ≤ bytes.length
  checksum : checksum format (bytes.take (bytes.length - GitObjectFormat.oidBytes format)) =
    bytes.drop (bytes.length - GitObjectFormat.oidBytes format)
  signature : asciiText (bytes.take 4) = js "DIRC"
  isVersion : u32 bytes 4 (bytes.length - GitObjectFormat.oidBytes format) = .ok version
  supported : version = 2 ∨ version = 3 ∨ version = 4
  isCount : u32 bytes 8 (bytes.length - GitObjectFormat.oidBytes format) = .ok count
  fewEntries : count ≤ limits.maximumIndexEntries
  fewFiles : count ≤ limits.maximumFiles
  entries : ∃ stop, storedEntries format version bytes
      (bytes.length - GitObjectFormat.oidBytes format) count indexHeaderBytes [] = .ok (reads, stop) ∧
    readExtensions bytes (bytes.length - GitObjectFormat.oidBytes format) stop =
      .ok (bytes.length - GitObjectFormat.oidBytes format)
  admitted : admitEntries lowerCase limits 0 initialIndexState reads = .ok state

variable {lowerCase limits}

/-- The one inversion of `parseCandidate`. -/
theorem parseCandidate_eq_ok {parsed : ParsedGitIndex} :
    parseCandidate lowerCase bytes format limits = .ok parsed ↔
      ∃ version count reads state, ParsedFile lowerCase limits bytes format version count reads state ∧
        parsed = {
          entries := state.entries
          objectFormat := format
          paths := sortBy compareUnits state.paths
          version := version } := by
  simp only [parseCandidate, bind_eq_ok, exists_const, failIf_eq_ok, Prod.exists, readEntries_eq_ok,
    bne_eq_false_iff_eq, Bool.and_eq_false_iff, Bool.or_eq_false_iff, decide_eq_false_iff_not,
    not_lt, pure, Except.pure, Except.ok.injEq]
  constructor
  · rintro ⟨long, checksum, signature, version, isVersion, supported, count, isCount, ⟨few, fewFiles⟩,
      stop, state, ⟨reads, stored, admitted⟩, last, extensions, rfl, rfl⟩
    exact ⟨version, count, reads, state, ⟨long, checksum, signature, isVersion,
      or_assoc.mp supported, isCount, few, fewFiles, ⟨stop, stored, extensions⟩, admitted⟩, rfl⟩
  · rintro ⟨version, count, reads, state, ⟨long, checksum, signature, isVersion, supported, isCount,
      few, fewFiles, ⟨stop, stored, extensions⟩, admitted⟩, rfl⟩
    exact ⟨long, checksum, signature, version, isVersion, or_assoc.mpr supported, count, isCount,
      ⟨few, fewFiles⟩, stop, state, ⟨reads, stored, admitted⟩, _, extensions, rfl, rfl⟩

/-- The names that the bytes of an index store. -/
def storedNames (format : GitObjectFormat) (bytes : List UInt8) : List (List UInt8) :=
  let contentEnd := bytes.length - GitObjectFormat.oidBytes format
  let reads := do
    let version ← u32 bytes 4 contentEnd
    let count ← u32 bytes 8 contentEnd
    storedEntries format version bytes contentEnd count indexHeaderBytes []
  match reads with
  | .ok (reads, _) => reads.map (·.raw)
  | .error _ => []

theorem ParsedFile.storedNames {version count : Nat}
    (file : ParsedFile lowerCase limits bytes format version count reads state) :
    storedNames format bytes = reads.map (·.raw) := by
  obtain ⟨stop, stored, -⟩ := file.entries
  simp [TrackedFileEnumeration.storedNames, file.isVersion, file.isCount, stored, bind, Except.bind]

/-! ## Conflicts between files and directories -/

variable (lowerCase)

/-- A list of paths that a work tree can have on any file system. -/
structure SafePaths (paths : List RelativePath) : Prop where
  nodup : paths.Nodup
  canonical : ∀ path ∈ paths, isRepositoryRelativePath path = true ∧ path ≠ repositoryRoot
  cased : ∀ path ∈ paths, ∀ other ∈ paths, lowerCase path = lowerCase other → path = other
  noDirectory : ∀ path ∈ paths, ∀ other ∈ paths, ¬ path ++ [0x2f] <+: other

/-- A name is stored together with one below it, and with one that continues it by a byte less
than a slash, as `a`, `a/c` and `a-b`. -/
def HiddenConflict (names : List (List UInt8)) : Prop :=
  ∃ name ∈ names, (∃ other ∈ names, ∃ b, b < 0x2f ∧ name ++ [b] <+: other) ∧
    ∃ other ∈ names, name ++ [0x2f] <+: other

variable {lowerCase}

/-- A path is a directory of another one in its units exactly if it is in its bytes. -/
theorem directory_iff {path other : RelativePath} (left : wellFormed path = true)
    (right : wellFormed other = true) :
    path ++ [0x2f] <+: other ↔ encode path ++ [0x2f] <+: encode other := by
  have slash : wellFormed (path ++ [0x2f]) = true := by
    rw [wellFormed_append_cons (by decide), left]
    rfl
  rw [← Utf8.encode_prefix_iff slash right, Utf8.encode_append left]
  exact Iff.rfl

/-- The paths of an accepted index are safe exactly if no conflict is hidden. -/
theorem safePaths_iff_not_hidden {parsed : ParsedGitIndex}
    (accepted : parseCandidate lowerCase bytes format limits = .ok parsed) :
    SafePaths lowerCase parsed.paths ↔ ¬ HiddenConflict (storedNames format bytes) := by
  obtain ⟨version, count, reads, state, file, rfl⟩ := parseCandidate_eq_ok.mp accepted
  obtain ⟨admitted, members⟩ :=
    admitted_of_admitEntries (admitted_initialIndexState lowerCase limits) file.admitted
  have names : ∀ name, name ∈ storedNames format bytes ↔ name ∈ state.paths.map encode := by
    intro name
    rw [file.storedNames, members]
    simp [initialIndexState]
  have wellFormed : ∀ path ∈ state.paths, wellFormed path = true := fun path member =>
    (admitted.names path member).wellFormed
  have below : ∀ path ∈ state.paths, ∀ other ∈ state.paths, path ++ [0x2f] <+: other ↔
      encode path ++ [0x2f] <+: encode other := fun path member other inPaths =>
    directory_iff (wellFormed path member) (wellFormed other inPaths)
  constructor
  · rintro safe ⟨name, inNames, -, other, otherIn, conflict⟩
    obtain ⟨path, member, rfl⟩ := mem_map.mp ((names name).mp inNames)
    obtain ⟨other, inPaths, rfl⟩ := mem_map.mp ((names other).mp otherIn)
    exact safe.noDirectory path ((mem_sortBy _).mpr member) other
      ((mem_sortBy _).mpr inPaths) ((below path member other inPaths).mpr conflict)
  · intro plain
    refine ⟨?_, fun path member => ?_, fun path member other inPaths folded => ?_,
      fun path member other inPaths conflict => ?_⟩
    · rw [Sorting.nodup_sortBy]
      exact admitted.nodup
    · rw [mem_sortBy] at member
      exact ⟨isRepositoryRelativePath_eq_true.mpr (admitted.names path member).canonical,
        (admitted.names path member).notRoot⟩
    · rw [mem_sortBy] at member inPaths
      have first := admitted.cased path member
      rw [folded, admitted.cased other inPaths] at first
      exact (Option.some.inj first).symm
    · rw [mem_sortBy] at member inPaths
      have inNames := mem_map_of_mem (f := encode) member
      have otherIn := mem_map_of_mem (f := encode) inPaths
      have conflict := (below path member other inPaths).mp conflict
      have apart : (state.paths.map encode).IsChain
          fun first second => ¬ first ++ [0x2f] <+: second := by
        rw [isChain_map]
        exact admitted.apart.imp_of_mem_imp fun path other member inPaths apart =>
          (below path member other inPaths).not.mp apart
      obtain ⟨u, inU, b, less, continues⟩ :=
        PrefixOrder.exists_between admitted.increasing apart inNames otherIn conflict
      exact plain ⟨_, (names _).mpr inNames, ⟨u, (names u).mpr inU, b, less, continues⟩,
        _, (names _).mpr otherIn, conflict⟩

end LowerCase

/-- A version 2 entry of a file, zero but for its mode and its name. -/
def plainEntry (name : List UInt8) : List UInt8 :=
  replicate 24 0 ++ be32 0o100644 ++ replicate 32 0 ++
    be16 name.length ++ name ++ replicate (8 - (62 + name.length) % 8) 0

/-- An index of `a`, `a-b` and `a/c`. -/
def hiddenConflictIndex : List UInt8 :=
  let content := [0x44, 0x49, 0x52, 0x43] ++ be32 2 ++ be32 3 ++
    plainEntry [0x61] ++ plainEntry [0x61, 0x2d, 0x62] ++ plainEntry [0x61, 0x2f, 0x63]
  content ++ checksum .sha1 content

theorem parseCandidate_hiddenConflictIndex :
    ∃ parsed, parseCandidate asciiLowerCase hiddenConflictIndex .sha1
        trackedFileEnumerationDefaultLimits = .ok parsed ∧
      parsed.paths = [js "a", js "a-b", js "a/c"] := by
  have accepted : (parseCandidate asciiLowerCase hiddenConflictIndex .sha1
      trackedFileEnumerationDefaultLimits).toOption.map (·.paths) =
        some [js "a", js "a-b", js "a/c"] := by decide +kernel
  obtain ⟨parsed, parse, paths⟩ := Option.map_eq_some_iff.mp accepted
  cases result : parseCandidate asciiLowerCase hiddenConflictIndex .sha1
      trackedFileEnumerationDefaultLimits with
  | error failure =>
    rw [result] at parse
    cases parse
  | ok other =>
    rw [result] at parse
    exact ⟨other, rfl, Option.some.inj parse ▸ paths⟩

/-- The index is accepted with `a` and a path below `a`. -/
theorem hiddenConflictIndex_unsafe :
    ∃ parsed, parseCandidate asciiLowerCase hiddenConflictIndex .sha1
        trackedFileEnumerationDefaultLimits = .ok parsed ∧
      ¬ SafePaths asciiLowerCase parsed.paths := by
  obtain ⟨parsed, parse, paths⟩ := parseCandidate_hiddenConflictIndex
  refine ⟨parsed, parse, fun safe => ?_⟩
  rw [paths] at safe
  exact safe.noDirectory (js "a") (by decide) (js "a/c") (by decide) (by decide)

/-- Its paths are not safe, as `a` and `a/c` are kept apart by `a-b`. -/
theorem safePaths_iff_not_hidden_hiddenConflictIndex :
    ∃ parsed, parseCandidate asciiLowerCase hiddenConflictIndex .sha1
        trackedFileEnumerationDefaultLimits = .ok parsed ∧
      (SafePaths asciiLowerCase parsed.paths ↔
        ¬ HiddenConflict (storedNames .sha1 hiddenConflictIndex)) := by
  obtain ⟨parsed, parse, -⟩ := parseCandidate_hiddenConflictIndex
  exact ⟨parsed, parse, safePaths_iff_not_hidden parse⟩

end AgentContextLint.TrackedFileEnumeration
