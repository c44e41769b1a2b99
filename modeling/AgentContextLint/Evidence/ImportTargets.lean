import AgentContextLint.Evidence.ImportGraph
import AgentContextLint.Lib.Netstring
import AgentContextLint.Syntax.ImportReferences

/-!
# Targets and identifiers of imports

A resolved target is a canonical path below the root (`resolveTarget_canonical`), and what the
loader hashes for the identity of a document determines its path (`identityInput_inj`).
-/

namespace AgentContextLint

open Utf16 List
open RepositoryPath (canonicalize_eq_ok isRepositoryRelativePath pathSegments repositoryRoot)

namespace RepositoryPath

variable {path : RelativePath}

/-- A join of accepted segments without slashes, empty ones and `.` is its own result. -/
theorem canonicalize_join_eq_ok {segments : List Text} (nonempty : segments ≠ [])
    (plain : ∀ segment ∈ segments, segment ≠ [] ∧ segment ≠ js "." ∧ (0x2f : CodeUnit) ∉ segment)
    (run : canonicalizeRepositoryRelativePath (joinSegments segments) .posix = .ok path) :
    isRepositoryRelativePath path = true ∧ path ≠ repositoryRoot := by
  obtain ⟨accepted, shape⟩ := canonicalize_eq_ok.mp run
  have kept : keptSegments .posix (joinSegments segments) = segments := by
    have split : (joinSegments segments).splitOnP (isSegmentSeparator .posix) = segments := by
      change (joinSegments segments).splitOnP (fun u => u == 0x2f) = segments
      rw [← splitOn_eq_splitOnP]
      exact splitOn_intercalate 0x2f (fun segment member => (plain segment member).2.2) nonempty
    rw [keptSegments_eq, split, filter_eq_self]
    exact fun segment member => decide_eq_true ⟨(plain segment member).1, (plain segment member).2.1⟩
  rw [kept, if_neg nonempty] at shape
  subst shape
  refine ⟨isRepositoryRelativePath_eq_true.mpr run, fun root => nonempty ?_⟩
  rw [← kept, root, keptSegments_root]

end RepositoryPath

namespace ImportGraph

/-! ## Targets -/

/-- Segments that the resolution of a specifier works with. -/
def PlainSegments (segments : List Text) : Prop :=
  ∀ segment ∈ segments, segment ≠ [] ∧ segment ≠ js "." ∧ (0x2f : CodeUnit) ∉ segment

theorem resolveSegments_plain {segments specifier resolved : List Text}
    (plain : PlainSegments segments) (slashless : ∀ segment ∈ specifier, (0x2f : CodeUnit) ∉ segment)
    (run : resolveSegments segments specifier = some resolved) : PlainSegments resolved := by
  induction specifier generalizing segments with
  | nil =>
    cases run
    exact plain
  | cons segment rest ih =>
    have later : ∀ segment ∈ rest, (0x2f : CodeUnit) ∉ segment :=
      fun segment member => slashless segment (mem_cons_of_mem _ member)
    rw [resolveSegments] at run
    split at run
    · exact ih plain later run
    rename_i kept
    split at run
    · split at run
      · cases run
      · exact ih (fun segment member => plain segment (dropLast_subset _ member)) later run
    · refine ih (fun other member => ?_) later run
      rcases mem_append.mp member with member | member
      · exact plain other member
      · cases mem_singleton.mp member
        exact ⟨fun nil => kept (.inl nil), fun dot => kept (.inr dot),
          slashless segment mem_cons_self⟩

theorem not_mem_of_mem_splitOn {text segment : Text} (member : segment ∈ text.splitOn 0x2f) :
    (0x2f : CodeUnit) ∉ segment := by
  intro slash
  rw [splitOn_eq_splitOnP] at member
  have apart := (mem_piece_of_splitOnP member slash).2
  simp at apart

/-- What is before the last slash of a path. -/
theorem baseOf_append (base last : Text) (slashless : (0x2f : CodeUnit) ∉ last) :
    baseOf (base ++ 0x2f :: last) = base := by
  have plain : ∀ u ∈ last.reverse, (u != 0x2f) = true := fun u member => by
    rw [bne_iff_ne]
    rintro rfl
    exact slashless (mem_reverse.mp member)
  rw [baseOf, if_pos (by simp), reverse_append, reverse_cons, append_assoc,
    dropWhile_append_of_pos plain]
  simp

theorem exists_last_slash {path : Text} (slash : (0x2f : CodeUnit) ∈ path) :
    ∃ base last, path = base ++ 0x2f :: last ∧ (0x2f : CodeUnit) ∉ last := by
  obtain ⟨front, back, eq, none⟩ := eq_append_cons_of_mem (mem_reverse.mpr slash)
  refine ⟨back.reverse, front.reverse, ?_, by simpa using none⟩
  rw [← reverse_reverse path, eq]
  simp

variable {fromPath : RelativePath}

/-- The segments that a resolution starts from. -/
theorem base_plain (canonical : isRepositoryRelativePath fromPath = true)
    (nonempty : baseOf fromPath ≠ []) : PlainSegments ((baseOf fromPath).splitOn 0x2f) := by
  by_cases slash : (0x2f : CodeUnit) ∈ fromPath
  · obtain ⟨base, last, rfl, slashless⟩ := exists_last_slash slash
    rw [baseOf_append base last slashless] at nonempty ⊢
    intro segment member
    have notRoot : base ++ 0x2f :: last ≠ repositoryRoot := fun root => by
      rw [root] at slash
      revert slash
      decide
    have inPath : segment ∈ pathSegments (base ++ 0x2f :: last) := by
      rw [RepositoryPath.pathSegments_append]
      exact mem_append_left _ member
    have found := RepositoryPath.canonical_of_mem_pathSegments canonical notRoot segment inPath
    exact ⟨found.ne_nil, found.ne_dot, not_mem_of_mem_splitOn member⟩
  · exact absurd (by rw [baseOf, if_neg (by simpa using slash)]) nonempty

/-- A target is a canonical path below the root. -/
theorem resolveTarget_canonical {targetPath : RelativePath} {specifier : Text}
    (canonical : isRepositoryRelativePath fromPath = true)
    (resolved : (resolveTarget fromPath specifier).path = some targetPath) :
    isRepositoryRelativePath targetPath = true ∧
      targetPath ≠ repositoryRoot := by
  unfold resolveTarget at resolved
  split at resolved
  · cases resolved
  dsimp only at resolved
  have start : PlainSegments
      (if baseOf fromPath = [] then [] else (baseOf fromPath).splitOn 0x2f) := by
    split
    · exact fun _ member => by cases member
    · rename_i nonempty
      exact base_plain canonical nonempty
  split at resolved
  · cases resolved
  · cases resolved
  rename_i segments nonempty found
  have plain := resolveSegments_plain start (fun _ => not_mem_of_mem_splitOn) found
  split at resolved
  · rename_i path accepted
    cases resolved
    exact RepositoryPath.canonicalize_join_eq_ok (fun nil => nonempty nil) plain accepted
  · cases resolved

/-! ## Identifiers -/

variable {path : RelativePath}

theorem zero_notMem_of_canonical (canonical : isRepositoryRelativePath path = true) :
    (0 : UInt8) ∉ Utf8.encode path := by
  obtain ⟨accepted, -⟩ := canonicalize_eq_ok.mp
    (RepositoryPath.isRepositoryRelativePath_eq_true.mp canonical)
  refine Utf8.zero_notMem_encode fun zero => ?_
  exact absurd (accepted.plain 0 zero) (by decide)

/-- What is hashed for the identity of a document determines its path. -/
theorem identityInput_inj {path' : RelativePath} {syntaxName : ImportDialect}
    {hash hash' : Text} (canonical : isRepositoryRelativePath path = true)
    (canonical' : isRepositoryRelativePath path' = true)
    (eq : identityInput path syntaxName hash = identityInput path' syntaxName hash') :
    path = path' := by
  rw [identityInput, identityInput, append_assoc, append_assoc] at eq
  obtain ⟨same, -⟩ := Netstring.append_cons_inj (zero_notMem_of_canonical canonical)
    (zero_notMem_of_canonical canonical') eq
  have unicode : ∀ {path}, isRepositoryRelativePath path = true →
      wellFormed path = true := fun canonical =>
    (canonicalize_eq_ok.mp
      (RepositoryPath.isRepositoryRelativePath_eq_true.mp canonical)).1.unicode
  exact Utf8.encode_injective (unicode canonical) (unicode canonical') same

theorem isStableIdentifier_documentId (path : RelativePath) (syntaxName : ImportDialect)
    (bytes : List UInt8) :
    ImportLexer.isStableIdentifier (stableIds path syntaxName bytes).documentId = true :=
  ImportLexer.isStableIdentifier_digest (js "document") _ (by decide)
    (all_eq_true.mp rfl) (by decide)

theorem isStableIdentifier_sourceId (path : RelativePath) (syntaxName : ImportDialect)
    (bytes : List UInt8) :
    ImportLexer.isStableIdentifier (stableIds path syntaxName bytes).sourceId = true :=
  ImportLexer.isStableIdentifier_digest (js "source") _ (by decide)
    (all_eq_true.mp rfl) (by decide)

end ImportGraph

end AgentContextLint
