import AgentContextLint.Cli.ObservedRuns

/-!
# The state of a worktree

The state that an executor returns for a worktree is a listing of fields that end with a NUL byte.
No field holds one, so a state gives back the digest of its index and its modified files
(`stateOf_injective`), and two readings with one state have read the same content of every entry
up to the object ids (`WorktreeAt.objectId_eq`).
-/

namespace AgentContextLint.GitObservation

open Utf16 Utf8
open List (cons mem_cons mem_flatMap mem_singleton)

variable {host : Host} {reading : WorktreeReading} {first second : FileReading}
  {one two : WorktreeReading} {modified others : List Modified}

/-! ## Hexadecimal text -/

def IsHex (text : Text) : Prop := ∀ u ∈ text, Sha256.isHexDigit u = true

theorem isHex_sha256Hex (message : List UInt8) : IsHex (Sha256.sha256Hex message) :=
  fun _ member => Sha256.isHexDigit_of_mem_sha256Hex member

theorem isHex_hexText (bytes : List UInt8) : IsHex (TrackedFileEnumeration.hexText bytes) := by
  intro u member
  rcases mem_flatMap.mp member with ⟨byte, _, digit⟩
  have small : byte.toNat / 0x10 < 0x10 := Nat.div_lt_of_lt_mul byte.toNat_lt
  rcases mem_cons.mp digit with rfl | digit
  · rw [← Nat.mod_eq_of_lt small]
    exact Sha256.isHexDigit_hexDigit _
  · rw [mem_singleton.mp digit]
    exact Sha256.isHexDigit_hexDigit _

theorem plain_of_isHexDigit {u : CodeUnit} (digit : Sha256.isHexDigit u = true) :
    isSurrogate u = false ∧ u ≠ 0 := by
  have small : u.toNat < 0x80 := by
    unfold Sha256.isHexDigit at digit
    simp only [Bool.or_eq_true, Bool.and_eq_true, decide_eq_true_eq] at digit
    omega
  constructor
  · simp only [isSurrogate, isHighSurrogate, isLowSurrogate, Bool.or_eq_false_iff,
      Bool.and_eq_false_iff, decide_eq_false_iff_not]
    omega
  · intro zero
    rw [zero] at digit
    revert digit
    decide

theorem IsHex.wellFormed {text : Text} (hex : IsHex text) : wellFormed text = true :=
  wellFormed_of_plain fun u member => (plain_of_isHexDigit (hex u member)).1

theorem IsHex.zero_notMem {text : Text} (hex : IsHex text) : (0 : UInt8) ∉ encode text :=
  zero_notMem_encode fun member => (plain_of_isHexDigit (hex 0 member)).2 rfl

/-! ## Fields -/

/-- What the fields of a modified file hold. -/
structure Modified.IsPrintable (change : Modified) : Prop where
  wellFormed : Utf16.wellFormed change.path = true
  plain : (0 : UInt8) ∉ encode change.path
  objectId : IsHex change.objectId

theorem stateFields_plain {digest : Text} {modified : List Modified} (hex : IsHex digest)
    (printable : ∀ change ∈ modified, change.IsPrintable) :
    ∀ field ∈ stateFields digest modified, (0 : UInt8) ∉ field := by
  intro field member
  rcases mem_cons.mp member with rfl | member
  · decide
  rcases mem_cons.mp member with rfl | member
  · exact hex.zero_notMem
  rcases mem_flatMap.mp member with ⟨change, inModified, member⟩
  have fields := printable change inModified
  rcases mem_cons.mp member with rfl | member
  · decide
  rcases mem_cons.mp member with rfl | member
  · exact fields.plain
  · rw [mem_singleton.mp member]
    exact fields.objectId.zero_notMem

theorem modified_of_fields (printable : ∀ change ∈ modified, change.IsPrintable)
    (othersPrintable : ∀ change ∈ others, change.IsPrintable)
    (same : (modified.flatMap fun change =>
        [encode (js "M"), encode change.path, encode change.objectId]) =
      others.flatMap fun change =>
        [encode (js "M"), encode change.path, encode change.objectId]) : modified = others := by
  induction modified generalizing others with
  | nil =>
    cases others with
    | nil => rfl
    | cons other others => cases same
  | cons change modified ih =>
    cases others with
    | nil => cases same
    | cons other others =>
      rw [List.flatMap_cons, List.flatMap_cons] at same
      rcases List.append_inj same rfl with ⟨fields, rest⟩
      have here := printable change List.mem_cons_self
      have there := othersPrintable other List.mem_cons_self
      have paths := (cons.inj (cons.inj fields).2)
      have path := encode_injective here.wellFormed there.wellFormed paths.1
      have objectId := encode_injective here.objectId.wellFormed there.objectId.wellFormed
        (cons.inj paths.2).1
      have later := ih (fun change member => printable change (List.mem_cons_of_mem _ member))
        (fun change member => othersPrintable change (List.mem_cons_of_mem _ member)) rest
      cases change
      cases other
      dsimp only at path objectId
      rw [path, objectId, later]

/-- A state gives back what it was made of. -/
theorem stateOf_injective {digest otherDigest : Text} (hex : IsHex digest)
    (otherHex : IsHex otherDigest) (printable : ∀ change ∈ modified, change.IsPrintable)
    (othersPrintable : ∀ change ∈ others, change.IsPrintable)
    (same : stateOf digest modified = stateOf otherDigest others) :
    digest = otherDigest ∧ modified = others := by
  have fields : stateFields digest modified = stateFields otherDigest others := by
    have left := ChangedFileMetadata.nulFields_flatMap (stateFields_plain hex printable)
    have right := ChangedFileMetadata.nulFields_flatMap (stateFields_plain otherHex othersPrintable)
    exact Option.some_inj.mp (left.symm.trans ((congrArg _ same).trans right))
  have rest := cons.inj (cons.inj fields).2
  exact ⟨encode_injective hex.wellFormed otherHex.wellFormed rest.1,
    modified_of_fields printable othersPrintable rest.2⟩

/-! ## Readings with one state -/

section

variable (worktree : WorktreeAt host reading)

include worktree

theorem WorktreeAt.printable : ∀ change ∈ reading.modified, change.IsPrintable := by
  intro change member
  rcases mem_flatMap.mp member with ⟨file, inFiles, made⟩
  have entry : file.entry ∈ reading.snapshot.index.parsed.entries := by
    rw [← worktree.files.entries]
    exact List.mem_map_of_mem inFiles
  unfold FileReading.modified isModified at made
  split_ifs at made with differs
  · rcases mem_singleton.mp made with rfl
    exact ⟨worktree.index.merged.wellFormed _ entry, worktree.index.merged.plain _ entry,
      isHex_hexText _⟩
  · cases made

theorem WorktreeAt.file_unique (inFirst : first ∈ reading.files) (inSecond : second ∈ reading.files)
    (same : first.entry.path = second.entry.path) : first = second := by
  have nodup : (reading.files.map fun file => file.entry.path).Nodup := by
    have paths := worktree.index.merged.nodup
    rw [← worktree.files.entries, List.map_map] at paths
    exact paths
  exact List.inj_on_of_nodup_map nodup inFirst inSecond same

theorem WorktreeAt.file_of_entry
    {entry : ParsedGitIndexEntry} (member : entry ∈ reading.snapshot.index.parsed.entries) :
    ∃ file ∈ reading.files, file.entry = entry := by
  rw [← worktree.files.entries] at member
  exact List.mem_map.mp member

end

def FileReading.objectId (format : GitObjectFormat) (file : FileReading) : Text :=
  gitBlobObjectId format file.content

theorem mem_modified_iff {change : Modified} : change ∈ reading.modified ↔ ∃ file ∈ reading.files,
      file.objectId reading.format ≠ file.entry.objectId ∧
        change = ⟨file.entry.path, file.objectId reading.format⟩ := by
  unfold WorktreeReading.modified FileReading.modified isModified
  rw [mem_flatMap]
  apply exists_congr
  intro file
  apply and_congr_right
  intro _
  change _ ↔ gitBlobObjectId _ _ ≠ _ ∧ _
  split_ifs with differs
  · exact mem_singleton.trans (and_iff_right differs).symm
  · exact ⟨fun none => absurd none List.not_mem_nil, fun other => absurd other.1 differs⟩

/-- A modified file that one of two readings with the same state has seen. -/
theorem WorktreeAt.objectId_of_modified (right : WorktreeAt host two)
    (modified : one.modified = two.modified) (inFirst : first ∈ one.files)
    (inSecond : second ∈ two.files) (same : first.entry.path = second.entry.path)
    (differs : first.objectId one.format ≠ first.entry.objectId) :
    first.objectId one.format = second.objectId two.format := by
  have member := mem_modified_iff.mpr ⟨first, inFirst, differs, rfl⟩
  rw [modified] at member
  rcases mem_modified_iff.mp member with ⟨file, inFiles, _, change⟩
  have path : first.entry.path = file.entry.path := congrArg Modified.path change
  rw [right.file_unique inSecond inFiles (same.symm.trans path)]
  exact congrArg Modified.objectId change

/-- Two readings with one state have found one object id for each entry. -/
theorem WorktreeAt.objectId_eq (left : WorktreeAt host one) (right : WorktreeAt host two)
    (state : one.snapshot.state = two.snapshot.state) (inFirst : first ∈ one.files)
    (inSecond : second ∈ two.files) (same : first.entry = second.entry) :
    first.objectId one.format = second.objectId two.format := by
  have states : stateOf one.snapshot.index.digest one.modified =
      stateOf two.snapshot.index.digest two.modified :=
    left.state.symm.trans (state.trans right.state)
  rw [left.index.digest, right.index.digest] at states
  have modified := (stateOf_injective (isHex_sha256Hex _) (isHex_sha256Hex _) left.printable
    right.printable states).2
  have path := congrArg ParsedGitIndexEntry.path same
  by_cases differs : first.objectId one.format = first.entry.objectId
  · by_cases others : second.objectId two.format = second.entry.objectId
    · rw [differs, others, same]
    · exact (left.objectId_of_modified modified.symm inSecond inFirst path.symm others).symm
  · exact right.objectId_of_modified modified inFirst inSecond path differs

end AgentContextLint.GitObservation
