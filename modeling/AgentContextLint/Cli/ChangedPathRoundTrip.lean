import AgentContextLint.Cli.GitMetadataExecutor
import Mathlib.Algebra.Order.BigOperators.Group.List
import Mathlib.Algebra.Order.Group.Nat

/-!
# Changed paths on their way through the executor

What `parseDiff` reads back from the output of `mergeWorktreeChanges`, for a listing of canonical
paths with the statuses A, D, M and T and for the modified paths of a worktree.

The executor keeps a byte order mark at the start of a path and `parseDiff` drops it, so that
exactly the paths without one arrive (`changedPaths_preserved_iff`).
-/

namespace AgentContextLint

open Utf16 Utf8 Metered Sorting List RepositoryPath

namespace ChangedFileMetadata

/-! ## Listings -/

inductive ListedStatus
  | added
  | deleted
  | modified
  | typeChanged

def ListedStatus.code : ListedStatus → UInt8
  | .added => 0x41
  | .deleted => 0x44
  | .modified => 0x4d
  | .typeChanged => 0x54

def ListedStatus.status : ListedStatus → GitChangeStatus
  | .added => .added
  | .deleted => .deleted
  | .modified => .modified
  | .typeChanged => .typeChanged

/-- The records of a name-status listing without copies and renames. -/
abbrev Listing := List (ListedStatus × RelativePath)

def fieldsOf (listing : Listing) : List (List UInt8) :=
  listing.flatMap fun entry => [[entry.1.code], encode entry.2]

def nameStatus (listing : Listing) : List UInt8 := (fieldsOf listing).flatMap (· ++ [0])

/-- A path that the reader of the index and the reader of a listing take for canonical. -/
structure GitPath (path : RelativePath) : Prop where
  canonical : isRepositoryRelativePath path = true
  notRoot : path ≠ repositoryRoot
  noGit : js ".git" ∉ pathSegments path
  short : byteLength path ≤ maximumPathBytes

def changeOf (entry : ListedStatus × RelativePath) : GitChangedPath :=
  ⟨entry.2, none, entry.1.status⟩

/-! ## Paths -/

variable {path : RelativePath} {listing : Listing} {changes : List GitChangedPath}

section

variable (ok : GitPath path)

include ok

theorem GitPath.canonicalize : canonicalizeRepositoryRelativePath path .posix = .ok path :=
  isRepositoryRelativePath_eq_true.mp ok.canonical

theorem GitPath.accepted : Accepted .posix path :=
  (canonicalize_eq_ok.mp ok.canonicalize).1

theorem GitPath.ne_nil : path ≠ [] := by
  intro empty
  have canonical := ok.canonical
  rw [empty] at canonical
  revert canonical
  decide

theorem GitPath.encode_ne_nil : encode path ≠ [] := by
  intro empty
  have same : encode path = encode [] := empty
  exact ok.ne_nil (encode_injective ok.accepted.unicode rfl same)

/-- A path has no NUL, and neither have its bytes. -/
theorem GitPath.zero_notMem : (0 : UInt8) ∉ encode path := by
  apply zero_notMem_encode
  intro zero
  have plain := ok.accepted.plain 0 zero
  revert plain
  decide

theorem GitPath.segment_ne_nil : ∀ segment ∈ pathSegments path, segment ≠ [] := by
  have canonical := ok.accepted.canonical
  have joined := (canonicalize_eq_ok.mp ok.canonicalize).2
  have kept : keptSegments .posix path ≠ [] := fun none =>
    ok.notRoot (joined.trans (if_pos none))
  rw [if_neg kept] at joined
  rw [joined, pathSegments_joinSegments canonical kept]
  exact fun segment member => (canonical segment member).ne_nil

theorem GitPath.noSlashEnd : path.getLast? ≠ some 0x2f := by
  intro slash
  rcases getLast?_eq_some_iff.mp slash with ⟨front, rfl⟩
  have last : [] ∈ pathSegments (front ++ [0x2f]) := by
    rw [pathSegments_append]
    exact mem_append_right _ mem_cons_self
  exact ok.segment_ne_nil [] last rfl

/-- A path is read back without its mark, if at all. -/
theorem GitPath.pathFromBytes_eq_some {read : RelativePath}
    (made : pathFromBytes (encode path) = some read) : read = withoutBom path := by
  unfold pathFromBytes at made
  rw [decodeWithoutBom_encode ok.accepted.unicode] at made
  split_ifs at made
  dsimp only at made
  split_ifs at made
  split at made
  · cases made
  · split_ifs at made with same
    cases made
    exact same.1

/-- A path without a mark is read back. -/
theorem GitPath.pathFromBytes_encode (plain : ¬ StartsWithBom path) :
    pathFromBytes (encode path) = some path := by
  unfold pathFromBytes
  rw [decodeWithoutBom_encode ok.accepted.unicode, withoutBom_of_not plain]
  have fits : ¬ (encode path = [] ∨ maximumPathBytes < (encode path).length) :=
    not_or.mpr ⟨ok.encode_ne_nil, Nat.not_lt.mpr ok.short⟩
  have separated : ¬ (0x5c ∈ path ∨ path.getLast? = some 0x2f) :=
    not_or.mpr ⟨ok.accepted.noBackslash rfl, ok.noSlashEnd⟩
  rw [if_neg fits]
  dsimp only
  rw [if_neg separated, ok.canonicalize]
  exact if_pos ⟨rfl, ok.notRoot, ok.noGit⟩

end

/-! ## Fields -/

/-- Fields without a NUL are read back from their listing. -/
theorem nulFields_flatMap {fields : List (List UInt8)} (plain : ∀ field ∈ fields, 0 ∉ field) :
    nulFields (fields.flatMap (· ++ [0])) = some fields := by
  have joined : fields.flatMap (· ++ [0]) = [0].intercalate (fields ++ [[]]) := by
    induction fields with
    | nil => rfl
    | cons first rest ih =>
      rw [flatMap_cons, ih fun field member => plain field (mem_cons_of_mem _ member)]
      cases rest with
      | nil => simp [intercalate]
      | cons second rest => simp [intercalate, append_assoc]
  have split : (fields.flatMap (· ++ [0])).splitOn 0 = fields ++ [[]] := by
    rw [joined]
    apply splitOn_intercalate
    · intro field member
      rcases mem_append.mp member with inFields | last
      · exact plain field inFields
      · exact mem_singleton.mp last ▸ not_mem_nil
    · exact append_ne_nil_of_right_ne_nil _ (cons_ne_nil _ _)
  unfold nulFields
  rw [split]
  simp

theorem nulFields_nameStatus (paths : ∀ entry ∈ listing, GitPath entry.2) :
    nulFields (nameStatus listing) = some (fieldsOf listing) := by
  apply nulFields_flatMap
  intro field member
  rcases mem_flatMap.mp member with ⟨entry, inListing, made⟩
  rcases mem_cons.mp made with rfl | last
  · cases entry.1 <;> decide
  · exact mem_singleton.mp last ▸ (paths entry inListing).zero_notMem

theorem fieldsOf_cons (entry : ListedStatus × RelativePath) (listing : Listing) :
    fieldsOf (entry :: listing) = [entry.1.code] :: encode entry.2 :: fieldsOf listing := rfl

theorem nameStatus_append (first second : Listing) :
    nameStatus (first ++ second) = nameStatus first ++ nameStatus second := by
  unfold nameStatus fieldsOf
  rw [flatMap_append, flatMap_append]

/-! ## Reading a listing -/

theorem readChange_listed (status : ListedStatus) (raw : List UInt8) (fields : List (List UInt8)) :
    readChange [status.code] (raw :: fields) = match pathFromBytes raw with
      | none => .error .invalidCommandOutput
      | some first => .ok (⟨first, none, status.status⟩, fields) := by
  have ascii : ¬ ∃ byte ∈ [status.code], 0x7f < byte := by
    cases status <;> decide
  have known : changeStatus [status.code] = some status.status := by
    cases status <;> rfl
  have plain : ¬ (status.status = .copied ∨ status.status = .renamed) := by
    cases status <;> decide
  unfold readChange
  rw [refuseIf, if_neg ascii, ok_bind, known]
  dsimp only [headD_cons, tail_cons]
  cases pathFromBytes raw with
  | none => rfl
  | some first => exact if_neg plain

section

variable (paths : ∀ entry ∈ listing, GitPath entry.2)

include paths

/-- A listing that is read gives its paths, without their marks. -/
theorem paths_of_readChanges {fuel : Nat}
    {changes out : List GitChangedPath} (enough : (fieldsOf listing).length ≤ fuel)
    (read : readChanges fuel changes (fieldsOf listing) = .ok out) :
    out.map (·.path) = changes.map (·.path) ++ listing.map (withoutBom ·.2) := by
  induction listing generalizing fuel changes with
  | nil =>
    have same : changes = out := by
      cases fuel with
      | zero => cases read; rfl
      | succ fuel => cases read; rfl
    rw [same, map_nil, append_nil]
  | cons entry rest ih =>
    rw [fieldsOf_cons, length_cons, length_cons] at enough
    rcases Nat.exists_eq_add_of_le' (Nat.le_of_add_left_le enough) with ⟨fuel, rfl⟩
    rw [fieldsOf_cons, readChanges] at read
    rcases check_bind_eq_ok.mp read with ⟨_, read⟩
    rcases bind_eq_ok.mp read with ⟨⟨change, fields⟩, first, read⟩
    rw [readChange_listed] at first
    cases made : pathFromBytes (encode entry.2) with
    | none => rw [made] at first; cases first
    | some path =>
      rw [made] at first
      cases first
      have here := (paths entry mem_cons_self).pathFromBytes_eq_some made
      have later := ih (fun entry member => paths entry (mem_cons_of_mem _ member))
        (by omega) read
      rw [later, map_append, append_assoc, here]
      rfl

/-- A listing without marks is read. -/
theorem readChanges_listed
    (plain : ∀ entry ∈ listing, ¬ StartsWithBom entry.2) {fuel : Nat} (enough : (fieldsOf listing).length ≤ fuel)
    (few : changes.length + listing.length ≤ maximumChangedPaths) :
    readChanges fuel changes (fieldsOf listing) = .ok (changes ++ listing.map changeOf) := by
  induction listing generalizing fuel changes with
  | nil =>
    rw [map_nil, append_nil]
    cases fuel <;> rfl
  | cons entry rest ih =>
    rw [fieldsOf_cons, length_cons, length_cons] at enough
    rcases Nat.exists_eq_add_of_le' (Nat.le_of_add_left_le enough) with ⟨fuel, rfl⟩
    rw [length_cons] at few
    have room : ¬ changes.length ≥ maximumChangedPaths := by omega
    rw [fieldsOf_cons, readChanges, refuseIf, if_neg room, ok_bind, readChange_listed,
      (paths entry mem_cons_self).pathFromBytes_encode (plain entry mem_cons_self)]
    have fewer : (changes ++ [changeOf entry]).length + rest.length ≤ maximumChangedPaths := by
      rw [length_append, length_singleton]
      omega
    have later : readChanges fuel (changes ++ [changeOf entry]) (fieldsOf rest) =
        .ok (changes ++ [changeOf entry] ++ rest.map changeOf) :=
      ih (fun entry member => paths entry (mem_cons_of_mem _ member))
        (fun entry member => plain entry (mem_cons_of_mem _ member)) (by omega) fewer
    rw [append_assoc] at later
    exact later

/-- A listing with distinct paths and without marks is parsed. -/
theorem parseDiff_nameStatus
    (distinct : (listing.map (·.2)).Nodup) (plain : ∀ entry ∈ listing, ¬ StartsWithBom entry.2)
    (few : listing.length ≤ maximumChangedPaths) :
    parseDiff (nameStatus listing) = .ok (sortBy (comparingBytes sortKey) (listing.map changeOf)) := by
  have read : readChanges (fieldsOf listing).length [] (fieldsOf listing) =
      .ok ([] ++ listing.map changeOf) :=
    readChanges_listed paths plain le_rfl (by rwa [length_nil, Nat.zero_add])
  have names : (listing.map changeOf).flatMap namedPaths = listing.map (·.2) := by
    rw [flatMap_map, map_eq_flatMap]
    rfl
  unfold parseDiff
  rw [nulFields_nameStatus paths]
  dsimp only
  rw [read, ok_bind, nil_append, names, refuseIf, if_neg (not_not.mpr distinct)]
  rfl

/-- A listing that is parsed gives its paths, without their marks. -/
theorem paths_of_parseDiff (parsed : parseDiff (nameStatus listing) = .ok changes) :
    (changes.map (·.path)).Perm (listing.map (withoutBom ·.2)) := by
  unfold parseDiff at parsed
  rw [nulFields_nameStatus paths] at parsed
  rcases bind_eq_ok.mp parsed with ⟨out, read, parsed⟩
  rcases check_bind_eq_ok.mp parsed with ⟨_, parsed⟩
  cases parsed
  have same := paths_of_readChanges paths le_rfl read
  rw [map_nil, nil_append] at same
  rw [← same]
  exact (sortBy_perm _ _).map _

/-- The order of the changes does not depend on the order of the listing. -/
theorem sorted_changes_of_perm
    (distinct : (listing.map (·.2)).Nodup) {other : Listing} (perm : other.Perm listing) :
    sortBy (comparingBytes sortKey) (other.map changeOf) =
      sortBy (comparingBytes sortKey) (listing.map changeOf) := by
  apply sortBy_eq_of_perm _ _ (perm.map changeOf)
  intro first inFirst second inSecond same
  rcases mem_map.mp inFirst with ⟨one, inOther, rfl⟩
  rcases mem_map.mp inSecond with ⟨two, inOther', rfl⟩
  have okOne := paths one (perm.mem_iff.mp inOther)
  have okTwo := paths two (perm.mem_iff.mp inOther')
  have keys : ∀ path : RelativePath, GitPath path → wellFormed (path ++ [0] ++ []) = true := by
    intro path ok
    rw [append_nil, wellFormed_append_cons (by decide), ok.accepted.unicode]
    rfl
  have key : sortKey (changeOf one) = sortKey (changeOf two) :=
    eq_of_compareBytes (keys one.2 okOne) (keys two.2 okTwo) same
  have path : one.2 = two.2 := append_cancel_right (append_cancel_right key)
  exact congrArg changeOf (inj_on_of_nodup_map distinct (perm.mem_iff.mp inOther)
    (perm.mem_iff.mp inOther') path)

end

end ChangedFileMetadata

/-! ## The executor -/

namespace GitMetadataExecutor

open ChangedFileMetadata

variable {listing : Listing} {modified : List RelativePath} {maximumOutputBytes : Nat}
  {others : List RelativePath} {other : Listing}

theorem listedPaths_listed (status : ListedStatus) {raw : List UInt8} (named : raw ≠ [])
    (fuel : Nat) (fields : List (List UInt8)) :
    listedPaths (fuel + 1) ([status.code] :: raw :: fields) =
      listedPaths fuel fields >>= fun later => .ok (decodeLossy raw :: later) := by
  have ascii : ¬ ∃ byte ∈ [status.code], 0x7f < byte := by
    cases status <;> decide
  have known : ¬ ¬ isListedStatus [status.code] = true := by
    cases status <;> decide
  rw [listedPaths, refuseIf, if_neg ascii, ok_bind, refuseIf, if_neg known, ok_bind, refuseIf,
    if_neg (show ¬ (raw :: fields).headD [] = [] from named), ok_bind, tail_cons,
    headD_cons]
  rfl

theorem listedPaths_fieldsOf (paths : ∀ entry ∈ listing, GitPath entry.2) {fuel : Nat}
    (enough : (fieldsOf listing).length ≤ fuel) :
    listedPaths fuel (fieldsOf listing) = .ok (listing.map (·.2)) := by
  induction listing generalizing fuel with
  | nil => cases fuel <;> rfl
  | cons entry rest ih =>
    rw [fieldsOf_cons, length_cons, length_cons] at enough
    rcases Nat.exists_eq_add_of_le' (Nat.le_of_add_left_le enough) with ⟨fuel, rfl⟩
    have ok := paths entry mem_cons_self
    have later := ih (fun entry member => paths entry (mem_cons_of_mem _ member))
      (show (fieldsOf rest).length ≤ fuel by omega)
    rw [fieldsOf_cons, listedPaths_listed entry.1 ok.encode_ne_nil, later, ok_bind,
      decodeLossy_encode ok.accepted.unicode]
    rfl

/-- The paths that the executor adds to a listing. -/
def additions (listing : Listing) (modified : List RelativePath) : Listing :=
  (modified.filter (· ∉ listing.map (·.2))).map (.modified, ·)

def merged (listing : Listing) (modified : List RelativePath) : Listing :=
  listing ++ additions listing modified

/-- The modified paths go behind the listing, one record each. -/
theorem addModified_run {present : List Text} {output : List UInt8}
    (fits : (output ++ nameStatus ((modified.filter (· ∉ present)).map (.modified, ·))).length ≤
      maximumOutputBytes) :
    modified.foldlM (addModified present maximumOutputBytes) output =
      .ok (output ++ nameStatus ((modified.filter (· ∉ present)).map (.modified, ·))) := by
  induction modified generalizing output with
  | nil => exact congrArg Except.ok (append_nil output).symm
  | cons path rest ih =>
    rw [foldlM_cons, addModified]
    by_cases known : path ∈ present
    · rw [filter_cons_of_neg (by simpa using known)] at fits ⊢
      rw [if_pos known, ok_bind]
      exact ih fits
    · rw [filter_cons_of_pos (by simpa using known), map_cons] at fits ⊢
      have split : nameStatus ((.modified, path) ::
          (rest.filter (· ∉ present)).map (.modified, ·)) = modifiedRecord path ++
            nameStatus ((rest.filter (· ∉ present)).map (.modified, ·)) := by
        simp [nameStatus, fieldsOf, modifiedRecord, ListedStatus.code]
      rw [split, ← append_assoc] at fits ⊢
      have room : ¬ output.length + (modifiedRecord path).length > maximumOutputBytes := by
        rw [length_append, length_append] at fits
        omega
      rw [if_neg known]
      dsimp only
      rw [refuseIf, if_neg room, ok_bind]
      exact ih fits

/-- Distinct canonical paths within the limits. -/
structure WithinLimits (listing : Listing) (modified : List RelativePath)
    (maximumOutputBytes : Nat) : Prop where
  listed : ∀ entry ∈ listing, GitPath entry.2
  distinct : (listing.map (·.2)).Nodup
  changed : ∀ path ∈ modified, GitPath path
  changedDistinct : modified.Nodup
  few : (merged listing modified).length ≤ maximumChangedPaths
  bytes : (nameStatus (merged listing modified)).length ≤ maximumOutputBytes

theorem WithinLimits.paths (input : WithinLimits listing modified maximumOutputBytes) :
    ∀ entry ∈ merged listing modified, GitPath entry.2 := by
  intro entry member
  rcases mem_append.mp member with inListing | added
  · exact input.listed entry inListing
  · rcases mem_map.mp added with ⟨path, inFilter, rfl⟩
    exact input.changed path (mem_filter.mp inFilter).1

theorem paths_merged (listing : Listing) (modified : List RelativePath) :
    (merged listing modified).map (·.2) =
      listing.map (·.2) ++ modified.filter (· ∉ listing.map (·.2)) := by
  rw [merged, map_append, additions, map_map]
  exact congrArg _ (map_id _)

theorem WithinLimits.nodup (input : WithinLimits listing modified maximumOutputBytes) :
    ((merged listing modified).map (·.2)).Nodup := by
  rw [paths_merged]
  apply input.distinct.append (input.changedDistinct.filter _)
  intro path inListing added
  exact of_decide_eq_true (mem_filter.mp added).2 inListing

/-- The executor prints the merged listing. -/
theorem WithinLimits.mergeWorktreeChanges_eq
    (input : WithinLimits listing modified maximumOutputBytes) :
    mergeWorktreeChanges (nameStatus listing) modified maximumOutputBytes =
      .ok (nameStatus (merged listing modified)) := by
  have present : changedPathsFromGitNameStatus (nameStatus listing) = .ok (listing.map (·.2)) := by
    unfold changedPathsFromGitNameStatus
    rw [nulFields_nameStatus input.listed]
    exact listedPaths_fieldsOf input.listed le_rfl
  have bytes := input.bytes
  rw [merged, nameStatus_append, additions] at bytes ⊢
  unfold mergeWorktreeChanges
  rw [present, ok_bind]
  exact addModified_run bytes

theorem merged_perm (perm : other.Perm listing) (perms : others.Perm modified) :
    (merged other others).Perm (merged listing modified) := by
  have same : others.filter (· ∉ other.map (·.2)) = others.filter (· ∉ listing.map (·.2)) :=
    filter_congr fun path _ =>
      decide_eq_decide.mpr (not_congr (perm.map (·.2)).mem_iff)
  unfold merged additions
  rw [same]
  exact perm.append ((perms.filter _).map _)

theorem length_nameStatus_perm (perm : other.Perm listing) :
    (nameStatus other).length = (nameStatus listing).length :=
  ((perm.flatMap_right _).flatMap_right _).length_eq

theorem WithinLimits.of_perm (input : WithinLimits listing modified maximumOutputBytes) (perm : other.Perm listing)
    (perms : others.Perm modified) : WithinLimits other others maximumOutputBytes where
  listed := fun entry member => input.listed entry (perm.mem_iff.mp member)
  distinct := (perm.map _).nodup_iff.mpr input.distinct
  changed := fun path member => input.changed path (perms.mem_iff.mp member)
  changedDistinct := perms.nodup_iff.mpr input.changedDistinct
  few := (merged_perm perm perms).length_eq ▸ input.few
  bytes := length_nameStatus_perm (merged_perm perm perms) ▸ input.bytes

/-! ## What arrives -/

/-- The changes that are parsed from the output of the executor. -/
def Reads (listing : Listing) (modified : List RelativePath) (maximumOutputBytes : Nat)
    (changes : List GitChangedPath) : Prop :=
  ∃ output, mergeWorktreeChanges (nameStatus listing) modified maximumOutputBytes = .ok output ∧
    parseDiff output = .ok changes

/-- One record for each listed path, and one for each modified path that is not listed, in an
order that the order of the records and of the modified paths does not matter to. -/
def Preserved (listing : Listing) (modified : List RelativePath)
    (maximumOutputBytes : Nat) : Prop :=
  ∃ changes, Reads listing modified maximumOutputBytes changes ∧
    changes.Perm (listing.map changeOf ++
      (modified.filter (· ∉ listing.map (·.2))).map fun path => ⟨path, none, .modified⟩) ∧
    ∀ other others, other.Perm listing → others.Perm modified →
      Reads other others maximumOutputBytes changes

theorem changes_merged (listing : Listing) (modified : List RelativePath) :
    (merged listing modified).map changeOf = listing.map changeOf ++
      (modified.filter (· ∉ listing.map (·.2))).map fun path => ⟨path, none, .modified⟩ := by
  rw [merged, map_append, additions, map_map]
  rfl

theorem not_startsWithBom_of_perm {paths : List Text}
    (perm : paths.Perm (paths.map withoutBom)) : ∀ path ∈ paths, ¬ StartsWithBom path := by
  intro path member marked
  have less : ((paths.map withoutBom).map length).sum < (paths.map length).sum := by
    rw [map_map]
    apply sum_lt_sum
    · exact fun other _ => length_withoutBom_le other
    · exact ⟨path, member, length_withoutBom marked⟩
  exact less.ne' (perm.map _).sum_eq

/-- The paths arrive exactly if none of them starts with a byte order mark. -/
theorem changedPaths_preserved_iff (input : WithinLimits listing modified maximumOutputBytes) :
    Preserved listing modified maximumOutputBytes ↔
      ∀ path ∈ listing.map (·.2) ++ modified, ¬ StartsWithBom path := by
  constructor
  · intro preserved
    rcases preserved with ⟨changes, ⟨output, printed, parsed⟩, records, _⟩
    rw [input.mergeWorktreeChanges_eq] at printed
    cases printed
    have arrived := paths_of_parseDiff input.paths parsed
    rw [← changes_merged] at records
    have sent := records.map (·.path)
    rw [map_map] at sent
    have same : ((merged listing modified).map (·.2)).Perm
        (((merged listing modified).map (·.2)).map withoutBom) := by
      rw [map_map]
      exact sent.symm.trans arrived
    have plain := not_startsWithBom_of_perm same
    intro path member
    apply plain path
    rw [paths_merged, mem_append]
    by_cases listed : path ∈ listing.map (·.2)
    · exact Or.inl listed
    · have inModified := (mem_append.mp member).resolve_left listed
      exact Or.inr (mem_filter.mpr ⟨inModified, decide_eq_true listed⟩)
  · intro plain
    have plainMerged : ∀ {other : Listing} {others : List RelativePath},
        other.Perm listing → others.Perm modified →
        ∀ entry ∈ merged other others, ¬ StartsWithBom entry.2 := by
      intro other others perm perms entry member
      have inMerged := (merged_perm perm perms).mem_iff.mp member
      have inPaths : entry.2 ∈ (merged listing modified).map (·.2) := mem_map_of_mem inMerged
      rw [paths_merged] at inPaths
      apply plain
      rcases mem_append.mp inPaths with listed | added
      · exact mem_append_left _ listed
      · exact mem_append_right _ (mem_filter.mp added).1
    have reads : ∀ other others, other.Perm listing → others.Perm modified →
        Reads other others maximumOutputBytes
          (sortBy (comparingBytes sortKey) ((merged listing modified).map changeOf)) := by
      intro other others perm perms
      have here := input.of_perm perm perms
      refine ⟨_, here.mergeWorktreeChanges_eq, ?_⟩
      rw [parseDiff_nameStatus here.paths here.nodup (plainMerged perm perms) here.few,
        sorted_changes_of_perm input.paths input.nodup (merged_perm perm perms)]
    refine ⟨_, reads listing modified (Perm.refl _) (Perm.refl _), ?_, reads⟩
    rw [← changes_merged]
    exact sortBy_perm _ _

/-- A deleted file in the index and an untracked one. -/
theorem changedPaths_preserved_plain :
    Preserved [(.deleted, js "a.ts")] [js "docs/b.ts"] 64 := by
  have deleted : GitPath (js "a.ts") :=
    ⟨by decide +kernel, by decide +kernel, by decide +kernel, by decide +kernel⟩
  have changed : GitPath (js "docs/b.ts") :=
    ⟨by decide +kernel, by decide +kernel, by decide +kernel, by decide +kernel⟩
  have input : WithinLimits [(.deleted, js "a.ts")] [js "docs/b.ts"] 64 := {
    listed := forall_mem_singleton.mpr deleted
    distinct := nodup_singleton _
    changed := forall_mem_singleton.mpr changed
    changedDistinct := nodup_singleton _
    few := by decide +kernel
    bytes := by decide +kernel }
  exact (changedPaths_preserved_iff input).mpr (by decide +kernel)

def markedPath : RelativePath := byteOrderMark :: js "a.ts"

/-- A modified file whose name starts with a byte order mark arrives under another name. -/
theorem markedPath_not_preserved : WithinLimits [(.modified, markedPath)] [] 64 ∧
    ¬ Preserved [(.modified, markedPath)] [] 64 := by
  have marked : GitPath markedPath :=
    ⟨by decide +kernel, by decide +kernel, by decide +kernel, by decide +kernel⟩
  have input : WithinLimits [(.modified, markedPath)] [] 64 := {
    listed := forall_mem_singleton.mpr marked
    distinct := nodup_singleton _
    changed := forall_mem_nil _
    changedDistinct := nodup_nil
    few := by decide +kernel
    bytes := by decide +kernel }
  have printed : mergeWorktreeChanges (nameStatus [(.modified, markedPath)]) [] 64 =
      .ok (nameStatus [(.modified, markedPath)]) := by decide +kernel
  have parsed : parseDiff (nameStatus [(.modified, markedPath)]) =
      .ok [⟨js "a.ts", none, .modified⟩] := by decide +kernel
  refine ⟨input, fun preserved => ?_⟩
  rcases preserved with ⟨changes, ⟨output, prints, parses⟩, records, _⟩
  rw [printed] at prints
  cases prints
  rw [parsed] at parses
  cases parses
  have same := perm_singleton.mp records
  revert same
  decide

end GitMetadataExecutor

end AgentContextLint
