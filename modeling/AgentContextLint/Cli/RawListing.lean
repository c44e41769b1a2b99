import AgentContextLint.Cli.ChangedPathRoundTrip

/-!
# Listings of raw paths

A listing that Git prints may name any path, also one that no reader of the index accepts. What
the executor puts behind such a listing, and what `parseDiff` reads from it: every listed path, and
every modified path whether it was listed or not.
-/

namespace AgentContextLint

open Utf16 Utf8 Metered Sorting List

namespace ChangedFileMetadata

/-- The records of a name-status listing: a status, and the bytes of a path. -/
abbrev RawListing := List (ListedStatus × List UInt8)

def rawFields (listing : RawListing) : List (List UInt8) :=
  listing.flatMap fun entry => [[entry.1.code], entry.2]

/-- What Git prints. -/
def rawStatus (listing : RawListing) : List UInt8 := (rawFields listing).flatMap (· ++ [0])

/-- A path is not empty and holds no NUL. -/
def Printable (listing : RawListing) : Prop := ∀ entry ∈ listing, entry.2 ≠ [] ∧ (0 : UInt8) ∉ entry.2

def modifiedRecords (paths : List RelativePath) : RawListing :=
  paths.map fun path => (.modified, encode path)

variable {listing : RawListing} {changes : List GitChangedPath}

theorem rawFields_cons (entry : ListedStatus × List UInt8) (listing : RawListing) :
    rawFields (entry :: listing) = [entry.1.code] :: entry.2 :: rawFields listing := rfl

theorem rawStatus_append (first second : RawListing) :
    rawStatus (first ++ second) = rawStatus first ++ rawStatus second := by
  unfold rawStatus rawFields
  rw [flatMap_append, flatMap_append]

theorem rawStatus_modified (path : RelativePath) :
    rawStatus [(.modified, encode path)] = GitMetadataExecutor.modifiedRecord path := by
  simp [rawStatus, rawFields, GitMetadataExecutor.modifiedRecord, ListedStatus.code]

theorem nulFields_rawStatus (plain : ∀ entry ∈ listing, (0 : UInt8) ∉ entry.2) :
    nulFields (rawStatus listing) = some (rawFields listing) := by
  apply nulFields_flatMap
  intro field member
  rcases mem_flatMap.mp member with ⟨entry, inListing, made⟩
  rcases mem_cons.mp made with rfl | last
  · cases entry.1 <;> decide
  · exact mem_singleton.mp last ▸ plain entry inListing

/-! ## Reading -/

/-- A path that is read is the decoded bytes, without their mark. -/
theorem pathFromBytes_eq_some {raw : List UInt8} {path : RelativePath}
    (read : pathFromBytes raw = some path) : decodeWithoutBom raw = some path := by
  unfold pathFromBytes at read
  split_ifs at read
  split at read
  · cases read
  · next text decoded =>
      split_ifs at read
      split at read
      · cases read
      · split_ifs at read with same
        cases read
        rw [decoded, same.1]

/-- Every record of a listing that is read gives its path. -/
theorem paths_of_readRaw {fuel : Nat} {changes out : List GitChangedPath}
    (enough : (rawFields listing).length ≤ fuel)
    (read : readChanges fuel changes (rawFields listing) = .ok out) :
    out.map (some ·.path) = changes.map (some ·.path) ++ listing.map (pathFromBytes ·.2) := by
  induction listing generalizing fuel changes with
  | nil =>
    have same : changes = out := by
      cases fuel with
      | zero => cases read; rfl
      | succ fuel => cases read; rfl
    rw [same, map_nil, append_nil]
  | cons entry rest ih =>
    rw [rawFields_cons, length_cons, length_cons] at enough
    rcases Nat.exists_eq_add_of_le' (Nat.le_of_add_left_le enough) with ⟨fuel, rfl⟩
    rw [rawFields_cons, readChanges] at read
    rcases check_bind_eq_ok.mp read with ⟨_, read⟩
    rcases bind_eq_ok.mp read with ⟨⟨change, fields⟩, first, read⟩
    rw [readChange_listed] at first
    cases made : pathFromBytes entry.2 with
    | none => rw [made] at first; cases first
    | some path =>
      rw [made] at first
      cases first
      have later := ih (by omega) read
      rw [later, map_append, append_assoc, map_cons (l := rest), made]
      rfl

theorem paths_of_parseRaw (plain : ∀ entry ∈ listing, (0 : UInt8) ∉ entry.2) (parsed : parseDiff (rawStatus listing) = .ok changes) :
    (changes.map (some ·.path)).Perm (listing.map (pathFromBytes ·.2)) := by
  unfold parseDiff at parsed
  rw [nulFields_rawStatus plain] at parsed
  rcases bind_eq_ok.mp parsed with ⟨out, read, parsed⟩
  rcases check_bind_eq_ok.mp parsed with ⟨_, parsed⟩
  cases parsed
  have paths := paths_of_readRaw le_rfl read
  rw [map_nil, nil_append] at paths
  rw [← paths]
  exact (sortBy_perm _ out).map _

theorem mem_of_parseRaw (plain : ∀ entry ∈ listing, (0 : UInt8) ∉ entry.2) (parsed : parseDiff (rawStatus listing) = .ok changes)
    {entry : ListedStatus × List UInt8} (member : entry ∈ listing) :
    ∃ path, decodeWithoutBom entry.2 = some path ∧ path ∈ changes.map (·.path) := by
  have listed : pathFromBytes entry.2 ∈ changes.map (some ·.path) :=
    (paths_of_parseRaw plain parsed).mem_iff.mpr (mem_map_of_mem member)
  rcases mem_map.mp listed with ⟨change, inChanges, path⟩
  exact ⟨change.path, pathFromBytes_eq_some path.symm, mem_map_of_mem inChanges⟩

end ChangedFileMetadata

/-! ## Merging -/

namespace GitMetadataExecutor

open ChangedFileMetadata

variable {listing : RawListing} {modified : List RelativePath} {maximumOutputBytes : Nat}

theorem listedPaths_rawFields (printable : Printable listing) {fuel : Nat}
    (enough : (rawFields listing).length ≤ fuel) :
    listedPaths fuel (rawFields listing) = .ok (listing.map (decodeLossy ·.2)) := by
  induction listing generalizing fuel with
  | nil => cases fuel <;> rfl
  | cons entry rest ih =>
    rw [rawFields_cons, length_cons, length_cons] at enough
    rcases Nat.exists_eq_add_of_le' (Nat.le_of_add_left_le enough) with ⟨fuel, rfl⟩
    have later := ih (fun entry member => printable entry (mem_cons_of_mem _ member))
      (show (rawFields rest).length ≤ fuel by omega)
    rw [rawFields_cons, listedPaths_listed entry.1 (printable entry mem_cons_self).1, later,
      ok_bind]
    rfl

variable {output : List UInt8}

/-- The modified paths that are not present have gone behind the output. -/
theorem addModified_eq_ok {present : List Text} {merged : List UInt8}
    (ran : modified.foldlM (addModified present maximumOutputBytes) output = .ok merged) :
    merged = output ++ rawStatus (modifiedRecords (modified.filter (· ∉ present))) := by
  induction modified generalizing output with
  | nil =>
    cases ran
    exact (append_nil _).symm
  | cons path rest ih =>
    rw [foldlM_cons] at ran
    rcases bind_eq_ok.mp ran with ⟨after, added, ran⟩
    rw [ih ran]
    unfold addModified at added
    by_cases known : path ∈ present
    · rw [if_pos known] at added
      cases added
      rw [filter_cons_of_neg (by simpa using known)]
    · rw [if_neg known] at added
      rcases check_bind_eq_ok.mp added with ⟨_, added⟩
      cases added
      have first : modifiedRecords (path :: rest.filter (· ∉ present)) =
          [(.modified, encode path)] ++ modifiedRecords (rest.filter (· ∉ present)) := rfl
      rw [filter_cons_of_pos (by simpa using known), first, rawStatus_append,
        rawStatus_modified, append_assoc]

theorem mergeWorktreeChanges_eq_ok (printable : Printable listing)
    (merged : mergeWorktreeChanges (rawStatus listing) modified maximumOutputBytes = .ok output) :
    output = rawStatus (listing ++
      modifiedRecords (modified.filter (· ∉ listing.map (decodeLossy ·.2)))) := by
  unfold mergeWorktreeChanges changedPathsFromGitNameStatus at merged
  rw [nulFields_rawStatus fun entry member => (printable entry member).2] at merged
  dsimp only at merged
  rw [listedPaths_rawFields printable le_rfl, ok_bind] at merged
  rw [addModified_eq_ok merged, rawStatus_append]

/-- What a collection reads from a listing and the modified paths behind it. -/
structure ReadsAll (listing : RawListing) (modified : List RelativePath)
    (changes : List GitChangedPath) : Prop where
  listed : ∀ entry ∈ listing, ∀ path, wellFormed path = true → ¬ StartsWithBom path →
    entry.2 = encode path → path ∈ changes.map (·.path)
  modified : ∀ path ∈ modified, wellFormed path = true → ¬ StartsWithBom path →
    path ∈ changes.map (·.path)

theorem readsAll_of_parseDiff (printable : Printable listing)
    (plain : ∀ path ∈ modified, (0 : UInt8) ∉ encode path) {changes : List GitChangedPath}
    (merged : mergeWorktreeChanges (rawStatus listing) modified maximumOutputBytes = .ok output)
    (parsed : parseDiff output = .ok changes) : ReadsAll listing modified changes := by
  rw [mergeWorktreeChanges_eq_ok printable merged] at parsed
  have noNul : ∀ entry ∈ listing ++
      modifiedRecords (modified.filter (· ∉ listing.map (decodeLossy ·.2))), (0 : UInt8) ∉ entry.2 := by
    intro entry member
    rcases mem_append.mp member with inListing | added
    · exact (printable entry inListing).2
    · rcases mem_map.mp added with ⟨path, inModified, rfl⟩
      exact plain path (mem_filter.mp inModified).1
  have listed : ∀ entry ∈ listing, ∀ path, wellFormed path = true → ¬ StartsWithBom path →
      entry.2 = encode path → path ∈ changes.map (·.path) := by
    intro entry member path ok noMark bytes
    rcases mem_of_parseRaw noNul parsed (mem_append_left _ member) with ⟨read, decoded, inside⟩
    rw [bytes, decodeWithoutBom_encode ok, withoutBom_of_not noMark] at decoded
    cases decoded
    exact inside
  refine ⟨listed, ?_⟩
  intro path member ok noMark
  by_cases known : path ∈ listing.map (decodeLossy ·.2)
  · rcases mem_map.mp known with ⟨entry, inListing, rfl⟩
    rcases mem_of_parseRaw noNul parsed (mem_append_left _ inListing) with
      ⟨read, decoded, inside⟩
    rcases Option.map_eq_some_iff.mp decoded with ⟨text, isText, rfl⟩
    -- the bytes that were read are UTF-8, so that both decoders give one text
    rw [decodeLossy_of_decode isText] at noMark ⊢
    rwa [withoutBom_of_not noMark] at inside
  · have added : (ListedStatus.modified, encode path) ∈
        modifiedRecords (modified.filter (· ∉ listing.map (decodeLossy ·.2))) :=
      mem_map_of_mem (mem_filter.mpr ⟨member, decide_eq_true known⟩)
    rcases mem_of_parseRaw noNul parsed (mem_append_right _ added) with ⟨read, decoded, inside⟩
    rw [decodeWithoutBom_encode ok, withoutBom_of_not noMark] at decoded
    cases decoded
    exact inside

end GitMetadataExecutor

end AgentContextLint
