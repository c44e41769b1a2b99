import AgentContextLint.Lib.Metered
import AgentContextLint.Lib.Utf16

/-!
# Repository-relative paths

Model of `packages/core/src/repository-path.ts`: the canonicalisation of a relative
path under an explicit path grammar, and the test for strings already in canonical
form.

`canonicalizeRepositoryRelativePath` refuses absolute, drive and device prefixes on
the raw text and only then drops `.` segments, so a prefix behind a leading `./`
is first seen by whoever reads the result. `canonicalize_ok` says once what an
accepted input is and what its result looks like; every later statement about
accepted paths goes through it.
-/

namespace AgentContextLint

open Utf16 Metered List

/-- `PathFlavor` of `packages/core/src/services.ts`. -/
inductive PathFlavor
  | posix
  | win32
  deriving DecidableEq

inductive RepositoryPathErrorCode
  | controlCharacter
  | malformedUnicode
  | nonCanonical
  | notRelative
  | outsideRepository
  | parentTraversal
  | rootNotAbsolute
  | targetNotAbsolute
  | unsupportedDevicePath
  | windowsDriveRelative
  | windowsSeparator
  deriving DecidableEq

structure RepositoryPathError where
  code : RepositoryPathErrorCode
  message : String
  input : Text
  root : Option Text
  deriving DecidableEq

/-- `RepositoryRelativePath`; the brand of the source is the predicate `isRepositoryRelativePath`. -/
abbrev RelativePath := Text

namespace RepositoryPath

variable {input : Text} {flavor : PathFlavor}

/-- `REPOSITORY_ROOT`. -/
def repositoryRoot : RelativePath := js "."

def fail {α : Type} (code : RepositoryPathErrorCode) (message : String) (input : Text)
    (root : Option Text) : Except RepositoryPathError α :=
  .error { code, message, input, root }

/-- `if (condition) fail(…)` -/
def failIf (condition : Bool) (code : RepositoryPathErrorCode) (message : String)
    (input : Text) : Except RepositoryPathError Unit :=
  if condition then fail code message input none else .ok ()

/-! ## Text validation -/

def isControl (codeUnit : CodeUnit) : Bool := codeUnit.toNat ≤ 0x1f || codeUnit.toNat == 0x7f

def failControl (input : Text) : Except RepositoryPathError Unit :=
  fail .controlCharacter "repository paths must not contain C0 or DEL control characters" input none

def failUnicode (input : Text) : Except RepositoryPathError Unit :=
  fail .malformedUnicode "repository paths must contain well-formed Unicode" input none

/-- The scan of `validateText`, on the units still to read. A low surrogate behind a
high one is skipped unread. -/
def validateUnits (input : Text) : Text → Except RepositoryPathError Unit
  | [] => .ok ()
  | [u] =>
    if isControl u then failControl input
    else if isHighSurrogate u then failUnicode input
    else if isLowSurrogate u then failUnicode input
    else .ok ()
  | u :: next :: rest =>
    if isControl u then failControl input
    else if isHighSurrogate u then
      if isLowSurrogate next then validateUnits input rest else failUnicode input
    else if isLowSurrogate u then failUnicode input
    else validateUnits input (next :: rest)

def validateText (input : Text) : Except RepositoryPathError Unit := validateUnits input input

/-! ## Prefix checks -/

/-- `[\\/]` -/
def isSeparator (u : CodeUnit) : Bool := u == 0x2f || u == 0x5c

/-- `[A-Za-z]` -/
def isAsciiLetter (u : CodeUnit) : Bool :=
  (0x41 ≤ u.toNat && u.toNat ≤ 0x5a) || (0x61 ≤ u.toNat && u.toNat ≤ 0x7a)

/-- `/^[A-Za-z]:/` -/
def hasDrivePrefix : Text → Bool
  | letter :: colon :: _ => isAsciiLetter letter && colon == 0x3a
  | _ => false

/-- `/^[\\/]{2}[?.][\\/]/` -/
def isWindowsDevicePath : Text → Bool
  | a :: b :: c :: d :: _ =>
    isSeparator a && isSeparator b && (c == 0x3f || c == 0x2e) && isSeparator d
  | _ => false

/-- `/^[A-Za-z]:(?![\\/])/` -/
def isWindowsDriveRelative (input : Text) : Bool :=
  hasDrivePrefix input && !(((input.drop 2).head?.map isSeparator).getD false)

/-- `/^[\\/]{2}[^\\/]+[\\/][^\\/]+(?:[\\/]|$)/`: both runs are maximal, so the last
group never fails. -/
def isUncPath : Text → Bool
  | a :: b :: rest =>
    let server := rest.takeWhile (!isSeparator ·)
    let share := (rest.dropWhile (!isSeparator ·)).drop 1
    isSeparator a && isSeparator b && !server.isEmpty &&
      !(share.takeWhile (!isSeparator ·)).isEmpty
  | _ => false

def isFullyQualifiedWindowsPath (input : Text) : Bool :=
  (hasDrivePrefix input && ((input.drop 2).head?.map isSeparator).getD false) || isUncPath input

/-- `isAbsolute` of `path.posix` and `path.win32`. -/
def isAbsolute : PathFlavor → Text → Bool
  | .posix, input => input.head? == some 0x2f
  | .win32, input =>
    (input.head?.map isSeparator).getD false ||
      (hasDrivePrefix input && ((input.drop 2).head?.map isSeparator).getD false)

def validateNoDevicePath (input : Text) : Except RepositoryPathError Unit :=
  failIf (isWindowsDevicePath input) .unsupportedDevicePath
    "Windows device namespace paths are not repository filesystem paths" input

/-! ## Canonicalisation -/

/-- What the source flavor splits at: `/[\\/]+/` or `/\/+/`. -/
def isSegmentSeparator : PathFlavor → CodeUnit → Bool
  | .win32, u => isSeparator u
  | .posix, u => u == 0x2f

def splitSegments (flavor : PathFlavor) (input : Text) : List Text :=
  splitRuns (isSegmentSeparator flavor) input

/-- The loop over the segments, with the canonical segments found so far. -/
def canonicalSegments (input : Text) :
    List Text → List Text → Except RepositoryPathError (List Text)
  | kept, [] => .ok kept
  | kept, segment :: rest =>
    if segment = [] ∨ segment = js "." then canonicalSegments input kept rest
    else if segment = js ".." then
      fail .parentTraversal "repository-relative paths must not contain parent traversal" input
        none
    else canonicalSegments input (kept ++ [segment]) rest

/-- `segments.join("/")` -/
def joinSegments (segments : List Text) : Text := [0x2f].intercalate segments

def canonicalizeRepositoryRelativePath (input : Text) (sourceFlavor : PathFlavor) :
    Except RepositoryPathError RelativePath := do
  validateText input
  validateNoDevicePath input
  failIf (isWindowsDriveRelative input) .windowsDriveRelative
    "drive-relative Windows paths depend on per-drive current-directory state" input
  failIf (isAbsolute sourceFlavor input || isFullyQualifiedWindowsPath input ||
      input.head? == some 0x5c) .notRelative
    "repository-relative paths must not be absolute or drive-rooted" input
  failIf (sourceFlavor == .posix && input.contains 0x5c) .windowsSeparator
    "POSIX input containing a backslash cannot be represented portably" input
  let kept ← canonicalSegments input [] (splitSegments sourceFlavor input)
  return if kept = [] then repositoryRoot else joinSegments kept

/-- The source catches `RepositoryPathError`, the only error of the call. -/
def isRepositoryRelativePath (input : Text) : Bool :=
  match canonicalizeRepositoryRelativePath input .posix with
  | .ok canonical => canonical == input
  | .error _ => false

/-! ## What validation accepts -/

theorem isControl_of_low {u : CodeUnit} (low : isLowSurrogate u = true) : isControl u = false := by
  simp only [isLowSurrogate, isControl, Bool.and_eq_true, decide_eq_true_eq, Bool.or_eq_false_iff,
    decide_eq_false_iff_not, beq_eq_false_iff_ne] at *
  omega

theorem validateUnits_eq_ok {input units : Text} {out : Unit} :
    validateUnits input units = .ok out ↔
      (∀ u ∈ units, isControl u = false) ∧ wellFormed units = true := by
  induction units using wellFormed.induct with
  | case1 => simp [validateUnits, wellFormed]
  | case2 u =>
    cases control : isControl u <;> cases high : isHighSurrogate u <;>
      cases low : isLowSurrogate u <;>
      simp [validateUnits, wellFormed, isSurrogate, failControl, failUnicode, fail, *]
  | case3 u next rest high ih =>
    cases control : isControl u <;> cases low : isLowSurrogate next <;>
      simp [validateUnits, wellFormed, failControl, failUnicode, fail, *]
    intro _ _
    exact isControl_of_low low
  | case4 u next rest high ih =>
    cases control : isControl u <;> cases low : isLowSurrogate u <;>
      simp [validateUnits, wellFormed, failControl, failUnicode, fail, *]

theorem canonicalSegments_eq_ok {kept segments out : List Text} :
    canonicalSegments input kept segments = .ok out ↔ js ".." ∉ segments ∧
        out = kept ++ segments.filter (fun segment => segment ≠ [] ∧ segment ≠ js ".") := by
  induction segments generalizing kept with
  | nil => simp [canonicalSegments, eq_comm]
  | cons segment rest ih =>
    unfold canonicalSegments
    by_cases skipped : segment = [] ∨ segment = js "."
    · rw [if_pos skipped, ih]
      have notParent : js ".." ≠ segment := by
        rcases skipped with rfl | rfl <;> decide
      have dropped : ¬ (segment ≠ [] ∧ segment ≠ js ".") := by tauto
      simp [notParent, dropped]
    · have keeps : segment ≠ [] ∧ segment ≠ js "." := by tauto
      rw [if_neg skipped]
      by_cases parent : segment = js ".."
      · simp [parent, fail]
      · rw [if_neg parent, ih]
        simp [Ne.symm parent, keeps]

/-- The segments an input keeps: neither empty nor `.`. -/
def keptSegments (flavor : PathFlavor) (input : Text) : List Text :=
  (splitSegments flavor input).filter (fun segment => segment ≠ [] ∧ segment ≠ js ".")

/-- What canonicalisation checks before it drops segments, and the result text. -/
structure Accepted (flavor : PathFlavor) (input : Text) : Prop where
  plain : ∀ u ∈ input, isControl u = false
  unicode : wellFormed input = true
  noDevice : isWindowsDevicePath input = false
  noDriveRelative : isWindowsDriveRelative input = false
  noAbsolute : isAbsolute flavor input = false
  noFullyQualified : isFullyQualifiedWindowsPath input = false
  noBackslashHead : input.head? ≠ some 0x5c
  noBackslash : flavor = .posix → (0x5c : CodeUnit) ∉ input
  noParent : js ".." ∉ splitSegments flavor input

theorem failIf_eq_ok {condition : Bool} {code : RepositoryPathErrorCode} {message : String} {out : Unit} :
    failIf condition code message input = .ok out ↔ condition = false := by
  cases condition <;> simp [failIf, fail]

/-- The one inversion of `canonicalizeRepositoryRelativePath`. -/
theorem canonicalize_eq_ok {input result : Text} :
    canonicalizeRepositoryRelativePath input flavor = .ok result ↔ Accepted flavor input ∧
        result = if keptSegments flavor input = [] then repositoryRoot
          else joinSegments (keptSegments flavor input) := by
  unfold canonicalizeRepositoryRelativePath
  simp only [bind_eq_ok, validateText, validateUnits_eq_ok, validateNoDevicePath, failIf_eq_ok,
    canonicalSegments_eq_ok, nil_append, exists_const, pure, Except.pure, Except.ok.injEq,
    Bool.or_eq_false_iff, Bool.and_eq_false_iff]
  constructor
  · rintro ⟨⟨plain, unicode⟩, noDevice, noDriveRelative, ⟨⟨noAbsolute, noFullyQualified⟩, noHead⟩,
      noBackslash, _, ⟨noParent, rfl⟩, rfl⟩
    refine ⟨⟨plain, unicode, noDevice, noDriveRelative, noAbsolute, noFullyQualified, ?_, ?_,
      noParent⟩, rfl⟩
    · simpa using noHead
    · rintro rfl
      simpa using noBackslash
  · rintro ⟨accepted, rfl⟩
    refine ⟨⟨accepted.plain, accepted.unicode⟩, accepted.noDevice, accepted.noDriveRelative,
      ⟨⟨accepted.noAbsolute, accepted.noFullyQualified⟩, ?_⟩, ?_, _, ⟨accepted.noParent, rfl⟩, rfl⟩
    · simpa using accepted.noBackslashHead
    · cases flavor with
      | posix => exact .inr (by simpa using accepted.noBackslash rfl)
      | win32 => exact .inl rfl

/-! ## Kept segments and their join -/

theorem keptSegments_eq (flavor : PathFlavor) (input : Text) :
    keptSegments flavor input = (input.splitOnP (isSegmentSeparator flavor)).filter
      (fun segment => segment ≠ [] ∧ segment ≠ js ".") := by
  have agree := congrArg (filter (· ≠ js "."))
    (filter_ne_nil_splitRuns (isSegmentSeparator flavor) input)
  simpa only [filter_filter, keptSegments, splitSegments, Bool.decide_and, Bool.and_comm]
    using agree

/-- Segments that a canonical path may be made of. -/
structure Canonical (segment : Text) : Prop where
  ne_nil : segment ≠ []
  ne_dot : segment ≠ js "."
  ne_parent : segment ≠ js ".."
  noSeparator : ∀ u ∈ segment, isSeparator u = false
  plain : ∀ u ∈ segment, isControl u = false
  unicode : wellFormed segment = true

theorem isSurrogate_of_segmentSeparator (flavor : PathFlavor) (u : CodeUnit)
    (sep : isSegmentSeparator flavor u = true) : isSurrogate u = false := by
  have cases : u = 0x2f ∨ u = 0x5c := by
    cases flavor <;> simp [isSegmentSeparator, isSeparator] at sep <;> tauto
  rcases cases with rfl | rfl <;> decide

theorem Accepted.canonical (accepted : Accepted flavor input) :
    ∀ segment ∈ keptSegments flavor input, Canonical segment := by
  intro segment member
  have noParent : segment ≠ js ".." := by
    rintro rfl
    exact accepted.noParent (mem_of_mem_filter member)
  rw [keptSegments_eq, mem_filter, decide_eq_true_eq] at member
  obtain ⟨inSplit, ne_nil, ne_dot⟩ := member
  refine ⟨ne_nil, ne_dot, noParent, fun u inSegment => ?_, fun u inSegment => ?_, ?_⟩
  · obtain ⟨inInput, notSep⟩ := mem_piece_of_splitOnP inSplit inSegment
    cases flavor with
    | win32 => exact notSep
    | posix =>
      have notBackslash : u ≠ 0x5c := by
        rintro rfl
        exact accepted.noBackslash rfl inInput
      simp only [isSegmentSeparator, beq_eq_false_iff_ne] at notSep
      simp [isSeparator, notSep, notBackslash]
  · exact accepted.plain u (mem_piece_of_splitOnP inSplit inSegment).1
  · have all := accepted.unicode
    rw [wellFormed_eq_all_splitOnP (isSurrogate_of_segmentSeparator _), all_eq_true] at all
    exact all segment inSplit

section Join

variable {segments : List Text}

theorem mem_joinSegments {u : CodeUnit} (member : u ∈ joinSegments segments) :
    u = 0x2f ∨ ∃ segment ∈ segments, u ∈ segment := by
  induction segments with
  | nil => simp [joinSegments, intercalate_nil] at member
  | cons first rest ih =>
    by_cases single : rest = []
    · subst single
      rw [joinSegments, intercalate_singleton] at member
      exact .inr ⟨first, mem_cons_self, member⟩
    · rw [joinSegments, intercalate_cons_of_ne_nil single, append_assoc,
        mem_append, mem_append, mem_singleton] at member
      rcases member with inFirst | rfl | inRest
      · exact .inr ⟨first, mem_cons_self, inFirst⟩
      · exact .inl rfl
      · rcases ih inRest with slash | ⟨segment, inRest, inSegment⟩
        · exact .inl slash
        · exact .inr ⟨segment, mem_cons_of_mem _ inRest, inSegment⟩

/-- Splitting a join of canonical segments gives the segments back, in both grammars. -/
theorem splitOnP_joinSegments (canonical : ∀ segment ∈ segments, Canonical segment)
    (nonempty : segments ≠ []) (flavor : PathFlavor) :
    (joinSegments segments).splitOnP (isSegmentSeparator flavor) = segments := by
  have sameUnits : ∀ u ∈ joinSegments segments, isSegmentSeparator flavor u = (u == 0x2f) := by
    intro u member
    cases flavor with
    | posix => rfl
    | win32 =>
      rcases mem_joinSegments member with rfl | ⟨segment, inSegments, inSegment⟩
      · rfl
      · have notSep := (canonical segment inSegments).noSeparator u inSegment
        simp only [isSeparator, Bool.or_eq_false_iff] at notSep
        simp [isSegmentSeparator, isSeparator, notSep.1, notSep.2]
  rw [splitOnP_congr sameUnits, ← splitOn_eq_splitOnP, joinSegments]
  refine splitOn_intercalate 0x2f (fun segment inSegments slash => ?_) nonempty
  exact Bool.false_ne_true ((canonical segment inSegments).noSeparator _ slash).symm

theorem keptSegments_joinSegments (canonical : ∀ segment ∈ segments, Canonical segment)
    (nonempty : segments ≠ []) (flavor : PathFlavor) :
    keptSegments flavor (joinSegments segments) = segments := by
  rw [keptSegments_eq, splitOnP_joinSegments canonical nonempty, filter_eq_self]
  intro segment member
  exact decide_eq_true ⟨(canonical segment member).ne_nil, (canonical segment member).ne_dot⟩

/-- A join starts with the first segment, followed by a slash or nothing. -/
theorem joinSegments_cons (first : Text) (rest : List Text) :
    ∃ tail, joinSegments (first :: rest) = first ++ tail ∧
      (tail = [] ∨ ∃ more, tail = 0x2f :: more) := by
  cases rest with
  | nil => exact ⟨[], by simp [joinSegments], .inl rfl⟩
  | cons second others =>
    refine ⟨0x2f :: joinSegments (second :: others), ?_, .inr ⟨_, rfl⟩⟩
    simp [joinSegments]

theorem hasDrivePrefix_joinSegments {first : Text} {rest : List Text} (canonical : Canonical first) :
    hasDrivePrefix (joinSegments (first :: rest)) = hasDrivePrefix first := by
  obtain ⟨tail, eq, shape⟩ := joinSegments_cons first rest
  rw [eq]
  match first, canonical.ne_nil with
  | [u], _ =>
    rcases shape with rfl | ⟨more, rfl⟩
    · rfl
    · simp [hasDrivePrefix]
  | u :: v :: others, _ => rfl

end Join

section PlainHead

variable {u : CodeUnit} (plain : isSeparator u = false) (rest : Text)

include plain

theorem isWindowsDevicePath_cons : isWindowsDevicePath (u :: rest) = false := by
  match rest with
  | [] | [_] | [_, _] => rfl
  | b :: c :: d :: tail => simp [isWindowsDevicePath, plain]

theorem isUncPath_cons : isUncPath (u :: rest) = false := by
  cases rest with
  | nil => rfl
  | cons b tail => simp [isUncPath, plain]

theorem isAbsolute_cons (noDrive : hasDrivePrefix (u :: rest) = false) (flavor : PathFlavor) :
    isAbsolute flavor (u :: rest) = false := by
  cases flavor with
  | posix =>
    have : u ≠ 0x2f := by rintro rfl; exact Bool.false_ne_true plain.symm
    simpa [isAbsolute] using this
  | win32 => simp [isAbsolute, noDrive, plain]

end PlainHead

/-- The result text of canonical segments passes every check of a further
canonicalisation, unless it exposes a drive prefix. -/
theorem accepted_joinSegments {first : Text} {rest : List Text}
    (canonical : ∀ segment ∈ first :: rest, Canonical segment)
    (noDrive : hasDrivePrefix first = false) (flavor : PathFlavor) :
    Accepted flavor (joinSegments (first :: rest)) := by
  have headCanonical := canonical first mem_cons_self
  have drive : hasDrivePrefix (joinSegments (first :: rest)) = false := by
    rw [hasDrivePrefix_joinSegments headCanonical, noDrive]
  have notSeparator : ∀ u ∈ joinSegments (first :: rest), u ≠ 0x2f → isSeparator u = false := by
    intro u member ne
    rcases mem_joinSegments member with rfl | ⟨segment, inSegments, inSegment⟩
    · exact (ne rfl).elim
    · exact (canonical segment inSegments).noSeparator u inSegment
  obtain ⟨u, others, split⟩ := exists_cons_of_ne_nil headCanonical.ne_nil
  obtain ⟨tail, eq, -⟩ := joinSegments_cons first rest
  have whole : joinSegments (first :: rest) = u :: (others ++ tail) := by
    rw [eq, split, cons_append]
  have headPlain : isSeparator u = false :=
    headCanonical.noSeparator u (by rw [split]; exact mem_cons_self)
  rw [whole] at drive
  refine ⟨fun v member => ?_, ?_, ?_, ?_, ?_, ?_, ?_, fun _ backslash => ?_, fun parent => ?_⟩
  · rcases mem_joinSegments member with rfl | ⟨segment, inSegments, inSegment⟩
    · rfl
    · exact (canonical segment inSegments).plain v inSegment
  · rw [wellFormed_eq_all_splitOnP (isSurrogate_of_segmentSeparator flavor),
      splitOnP_joinSegments canonical (cons_ne_nil _ _), all_eq_true]
    exact fun segment member => (canonical segment member).unicode
  · rw [whole, isWindowsDevicePath_cons headPlain]
  · rw [whole, isWindowsDriveRelative, drive, Bool.false_and]
  · rw [whole, isAbsolute_cons headPlain _ drive]
  · rw [whole, isFullyQualifiedWindowsPath, drive, isUncPath_cons headPlain, Bool.false_and,
      Bool.false_or]
  · rw [whole, head?_cons, ne_eq, Option.some.injEq]
    rintro rfl
    exact Bool.false_ne_true headPlain.symm
  · exact Bool.false_ne_true (notSeparator _ backslash (by decide)).symm
  · have kept : js ".." ∈ keptSegments flavor (joinSegments (first :: rest)) :=
      mem_filter.mpr ⟨parent, by decide⟩
    rw [keptSegments_joinSegments canonical (cons_ne_nil _ _)] at kept
    exact (canonical _ kept).ne_parent rfl

/-- A drive prefix is refused under either grammar: with a separator behind it the path is
fully qualified, and without one it is drive-relative. -/
theorem Accepted.noDrivePrefix {flavor : PathFlavor} {input : Text}
    (accepted : Accepted flavor input) : hasDrivePrefix input = false := by
  have relative := accepted.noDriveRelative
  have qualified := accepted.noFullyQualified
  unfold isWindowsDriveRelative at relative
  unfold isFullyQualifiedWindowsPath at qualified
  cases drive : hasDrivePrefix input with
  | false => rfl
  | true =>
    rw [drive, Bool.true_and] at relative qualified
    rw [Bool.not_eq_false'] at relative
    rw [relative, Bool.true_or] at qualified
    exact qualified

theorem accepted_root (flavor : PathFlavor) : Accepted flavor repositoryRoot := by
  have plain : ∀ u ∈ repositoryRoot, isControl u = false := by
    intro u member
    cases mem_singleton.mp member
    rfl
  cases flavor <;> exact ⟨plain, rfl, rfl, rfl, rfl, rfl, by decide, by decide, by decide⟩

theorem keptSegments_root (flavor : PathFlavor) : keptSegments flavor repositoryRoot = [] := by
  cases flavor <;> decide

theorem isRepositoryRelativePath_eq_true {input : Text} : isRepositoryRelativePath input = true ↔
      canonicalizeRepositoryRelativePath input .posix = .ok input := by
  unfold isRepositoryRelativePath
  cases canonicalizeRepositoryRelativePath input .posix <;> simp

/-- Whether a result is its own canonical form, under any grammar: exactly when the first
segment shows no drive prefix. -/
theorem canonicalize_joinSegments {first : Text} {rest : List Text}
    (canonical : ∀ segment ∈ first :: rest, Canonical segment) (flavor : PathFlavor) :
    canonicalizeRepositoryRelativePath (joinSegments (first :: rest)) flavor =
        .ok (joinSegments (first :: rest)) ↔ hasDrivePrefix first = false := by
  rw [canonicalize_eq_ok, keptSegments_joinSegments canonical (cons_ne_nil _ _),
    if_neg (cons_ne_nil _ _), and_iff_left rfl]
  constructor
  · intro accepted
    rw [← hasDrivePrefix_joinSegments (canonical first mem_cons_self)]
    exact accepted.noDrivePrefix
  · exact fun noDrive => accepted_joinSegments canonical noDrive flavor

def pathSegments (path : Text) : List Text := path.splitOn 0x2f

theorem pathSegments_ne_nil (path : Text) : pathSegments path ≠ [] := by
  rw [pathSegments, splitOn_eq_splitOnP]
  exact splitOnP_ne_nil _ _

/-- Splitting and joining again changes nothing. -/
theorem joinSegments_pathSegments (path : Text) : joinSegments (pathSegments path) = path :=
  intercalate_splitOn _

theorem pathSegments_append (path rest : Text) :
    pathSegments (path ++ 0x2f :: rest) = pathSegments path ++ pathSegments rest :=
  splitOn_append_cons_self _ _

theorem pathSegments_joinSegments {segments : List Text}
    (canonical : ∀ segment ∈ segments, Canonical segment) (nonempty : segments ≠ []) :
    pathSegments (joinSegments segments) = segments := by
  rw [pathSegments, splitOn_eq_splitOnP]
  exact splitOnP_joinSegments canonical nonempty .posix

theorem canonical_of_mem_pathSegments {path : RelativePath}
    (canonical : isRepositoryRelativePath path = true) (notRoot : path ≠ repositoryRoot) :
    ∀ segment ∈ pathSegments path, Canonical segment := by
  obtain ⟨accepted, shape⟩ := canonicalize_eq_ok.mp (isRepositoryRelativePath_eq_true.mp canonical)
  by_cases none : keptSegments .posix path = []
  · rw [if_pos none] at shape
    exact absurd shape notRoot
  · rw [if_neg none] at shape
    have segments := pathSegments_joinSegments accepted.canonical none
    rw [← shape] at segments
    rw [segments]
    exact accepted.canonical

/-! ## Canonical results -/

/-- An accepted path has a result in canonical form exactly when it keeps a segment and the
first one it keeps does not start like a drive. Without a kept segment the result is the root
marker, which is its own canonical form under both grammars. -/
theorem canonicalize_result_canonical_iff (input result : Text) (flavor : PathFlavor)
    (accepts : canonicalizeRepositoryRelativePath input flavor = .ok result) :
    ((isRepositoryRelativePath result = true ∧
        canonicalizeRepositoryRelativePath result flavor = .ok result ∧
        ∀ segment ∈ pathSegments result,
          segment ≠ [] ∧ segment ≠ js "." ∧ segment ≠ js "..") ↔
      ∃ first, (keptSegments flavor input).head? = some first ∧ hasDrivePrefix first = false) ∧
    (keptSegments flavor input = [] → result = repositoryRoot ∧
      isRepositoryRelativePath result = true ∧
      canonicalizeRepositoryRelativePath result flavor = .ok result) := by
  obtain ⟨accepted, rfl⟩ := canonicalize_eq_ok.mp accepts
  have canonical := accepted.canonical
  cases kept : keptSegments flavor input with
  | nil =>
    have rootFixed : ∀ grammar, canonicalizeRepositoryRelativePath repositoryRoot grammar =
        .ok repositoryRoot := by
      intro grammar
      exact canonicalize_eq_ok.mpr ⟨accepted_root grammar, by rw [keptSegments_root]; rfl⟩
    rw [if_pos rfl]
    refine ⟨⟨fun ⟨_, _, clean⟩ => ?_, fun ⟨_, found, _⟩ => by cases found⟩, fun _ =>
      ⟨rfl, isRepositoryRelativePath_eq_true.mpr (rootFixed .posix), rootFixed flavor⟩⟩
    exact ((clean (js ".") (by decide)).2.1 rfl).elim
  | cons first rest =>
    rw [kept] at canonical
    rw [if_neg (cons_ne_nil _ _), isRepositoryRelativePath_eq_true,
      canonicalize_joinSegments canonical, canonicalize_joinSegments canonical,
      pathSegments_joinSegments canonical (cons_ne_nil _ _)]
    refine ⟨⟨fun ⟨noDrive, _, _⟩ => ⟨first, rfl, noDrive⟩, ?_⟩, fun none => by cases none⟩
    rintro ⟨_, same, noDrive⟩
    cases same
    exact ⟨noDrive, noDrive, fun segment member => ⟨(canonical segment member).ne_nil,
      (canonical segment member).ne_dot, (canonical segment member).ne_parent⟩⟩

/-- A path with `.` in front and with backslashes. -/
theorem canonicalize_result_canonical_iff_src :
    (isRepositoryRelativePath (js "src/a.ts") = true ∧
        canonicalizeRepositoryRelativePath (js "src/a.ts") .win32 = .ok (js "src/a.ts") ∧
        ∀ segment ∈ pathSegments (js "src/a.ts"),
          segment ≠ [] ∧ segment ≠ js "." ∧ segment ≠ js "..") ↔
      ∃ first, (keptSegments .win32 (js ".\\src\\a.ts")).head? = some first ∧
        hasDrivePrefix first = false :=
  (canonicalize_result_canonical_iff (js ".\\src\\a.ts") (js "src/a.ts") .win32 (by decide)).1

/-- Behind a leading `./` a drive prefix passes the checks and reaches the result. -/
theorem canonicalize_exposes_drive :
    canonicalizeRepositoryRelativePath (js "./C:/src") .posix = .ok (js "C:/src") ∧
      isRepositoryRelativePath (js "C:/src") = false ∧
      ∀ flavor, canonicalizeRepositoryRelativePath (js "C:/src") flavor ≠ .ok (js "C:/src") := by
  refine ⟨by decide, by decide, fun flavor => ?_⟩
  cases flavor <;> decide

end RepositoryPath

end AgentContextLint
