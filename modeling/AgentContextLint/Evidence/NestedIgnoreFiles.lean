import AgentContextLint.Evidence.IgnoreLoading

/-!
# Nested ignore files

What a run of the ignore engine decides, for any round that loads a file or skips it in an
excluded directory: every path is decided as by the rules of all ignore files, and of these
only the ones in directories above the path matter.
-/

namespace AgentContextLint.IgnoreEngine

open Utf16 Metered List

open RepositoryPath

/-! ## Files that govern a path -/

/-- The directory of the ignore file contains the path. -/
def governs (path file : RelativePath) : Bool :=
  match baseOfIgnoreFile file with
  | .ok base => (relativeToBase path base).isSome
  | .error _ => false

variable {file : RelativePath}

theorem governs_iff {path base : RelativePath} (based : baseOfIgnoreFile file = .ok base) :
    governs path file = true ↔ Below path base := by
  rw [governs, based]
  exact isSome_relativeToBase

/-- Ignore files in the order they are visited. -/
structure Visited (files : List RelativePath) : Prop where
  placed : ∀ file ∈ files, ∃ base, baseOfIgnoreFile file = .ok base ∧ IgnoreFileIn base file
  sorted : files.Pairwise fun first second => pathDepth first ≤ pathDepth second
  nodup : files.Nodup

section Decision

variable (limits : IgnoreEngineLimits) (repository : ReadOnlyRepository) (supplied : List RuleLine)

def rulesOfFiles (files : List RelativePath) : List InternalRule :=
  rulesOf limits 0 (supplied ++ files.flatMap (fileLines repository))

def governingLines (files : List RelativePath) (path : RelativePath) : List RuleLine :=
  (files.filter (governs path)).flatMap (fileLines repository)

variable {limits repository supplied}

theorem filter_fileLines (path file : RelativePath) :
    (fileLines repository file).filter (lineInScope path) =
      if governs path file then fileLines repository file else [] := by
  have same : ∀ line ∈ fileLines repository file, lineInScope path line = governs path file := by
    intro line member
    rw [governs, (forall_mem_fileLines line member).2]
    rfl
  rw [filter_congr same]
  cases governs path file <;> simp

theorem filter_flatMap_fileLines (files : List RelativePath) (path : RelativePath) :
    (files.flatMap (fileLines repository)).filter (lineInScope path) =
      governingLines repository files path := by
  unfold governingLines
  induction files with
  | nil => rfl
  | cons file rest ih =>
    rw [flatMap_cons, filter_append, ih, filter_fileLines, filter_cons]
    split
    · rw [flatMap_cons]
    · rw [nil_append]

/-- The rules in scope of a path come from the lines that govern it. -/
theorem rulesOfFiles_inScope (files : List RelativePath) (path : RelativePath) :
    ((rulesOfFiles limits repository supplied files).filter (inScope path)).map ruleContent =
      ((rulesOf limits 0 supplied).filter (inScope path)).map ruleContent ++
        (governingLines repository files path).filterMap (ruleOfLine limits) := by
  have numbered : ∀ line ∈ files.flatMap (fileLines repository),
      line.source.line.isSome = true := by
    intro line member
    obtain ⟨file, -, inFile⟩ := mem_flatMap.mp member
    exact (forall_mem_fileLines line inFile).1
  rw [rulesOfFiles, rulesOf_append, filter_append, map_append, rulesOf_inScope numbered,
    filter_flatMap_fileLines]

variable {files : List RelativePath}

variable (limits supplied) in
/-- Files that give a path the same lines decide it alike. -/
theorem excluding_of_governingLines {others : List RelativePath}
    {repository' : ReadOnlyRepository} {path : RelativePath}
    (same : governingLines repository files path = governingLines repository' others path)
    (file : Bool) :
    (excluding (rulesOfFiles limits repository supplied files) path file).map ruleContent =
      (excluding (rulesOfFiles limits repository' supplied others) path file).map ruleContent := by
  apply excluding_congr
  rw [rulesOfFiles_inScope, rulesOfFiles_inScope, same]

variable {loaded : List RelativePath}

variable (repository) in
theorem governingLines_of_loaded (nodup : files.Nodup) (sublist : loaded.Sublist files)
    {path : RelativePath} (all : ∀ file ∈ files, governs path file = true → file ∈ loaded) :
    governingLines repository loaded path = governingLines repository files path := by
  have within := sublist.filter (governs path)
  have subset : files.filter (governs path) ⊆ loaded.filter (governs path) := by
    intro file member
    obtain ⟨inFiles, governing⟩ := mem_filter.mp member
    exact mem_filter.mpr ⟨all file inFiles governing, governing⟩
  have length := (subperm_of_subset (nodup.filter _) subset).length_le
  rw [governingLines, governingLines, within.eq_of_length_le length]

/-- What is loaded decides like everything: a file that was skipped lies in an excluded
directory, and above the outermost of these nothing was skipped. -/
theorem excluding_loaded (visited : Visited files) (sublist : loaded.Sublist files)
    (skipped : ∀ file ∈ files, file ∉ loaded → ∃ base, baseOfIgnoreFile file = .ok base ∧ base ≠ repositoryRoot ∧ (excluding (rulesOfFiles limits repository supplied loaded) base false).isSome = true)
    (path : RelativePath) :
    (excluding (rulesOfFiles limits repository supplied loaded) path true).map ruleContent =
      (excluding (rulesOfFiles limits repository supplied files) path true).map ruleContent := by
  by_cases all : ∀ file ∈ files, governs path file = true → file ∈ loaded
  · exact excluding_of_governingLines _ _ (governingLines_of_loaded _ visited.nodup sublist all) true
  · -- the outermost file that was skipped
    have some : ∃ depth, ∃ file ∈ files, governs path file = true ∧ file ∉ loaded ∧
        pathDepth file = depth := by
      push Not at all
      obtain ⟨file, member, governing, notLoaded⟩ := all
      exact ⟨_, file, member, governing, notLoaded, rfl⟩
    classical
    obtain ⟨file, member, governing, notLoaded, depth⟩ := Nat.find_spec some
    have outermost : ∀ other ∈ files, governs path other = true → pathDepth other < pathDepth file →
        other ∈ loaded := by
      intro other inFiles otherGoverns shorter
      by_contra otherSkipped
      exact Nat.find_min some (depth ▸ shorter) ⟨other, inFiles, otherGoverns, otherSkipped, rfl⟩
    obtain ⟨base, based, notRoot, excluded⟩ := skipped file member notLoaded
    have below := (governs_iff based).mp governing
    have above : ∀ other ∈ files, governs base other = true → other ∈ loaded := by
      intro other inFiles otherGoverns
      obtain ⟨otherBase, otherBased, otherLocated⟩ := visited.placed other inFiles
      obtain ⟨_, based', located⟩ := visited.placed file member
      cases based.symm.trans based'
      have aboveBase := (governs_iff otherBased).mp otherGoverns
      refine outermost other inFiles ?_ ?_
      · exact (governs_iff otherBased).mpr (aboveBase.of_upTo (below.upTo notRoot))
      · by_contra later
        exact not_below_of_pathDepth located otherLocated notRoot (not_lt.mp later) aboveBase
    have same := excluding_of_governingLines limits supplied
      (governingLines_of_loaded repository visited.nodup sublist above) false
    have excludedByAll : (excluding (rulesOfFiles limits repository supplied files) base
        false).isSome = true := by
      rw [← Option.isSome_map, ← same, Option.isSome_map]
      exact excluded
    obtain ⟨rest, inside⟩ := below.resolve_left notRoot
    rw [excluding_of_below ⟨rest, inside⟩ excluded, excluding_of_below ⟨rest, inside⟩ excludedByAll,
      same]

end Decision

variable {paths : List RelativePath}

variable {enumeration : TrackedFileEnumeration} {result : IgnoreEngineResult}
  {collation : Collation} {limits : IgnoreEngineLimits}

/-! ## Enumerated files -/

/-- Accepted paths are canonical and strictly increasing. -/
theorem snapshotPaths_eq_ok {previous : Option Text}
    {candidates paths : List Text} (run : snapshotPaths limits previous candidates = .ok paths) :
    paths = candidates ∧
      (∀ path ∈ paths, canonicalizeRepositoryRelativePath path .posix = .ok path) ∧
      (∀ before ∈ previous, ∀ path ∈ paths, before < path) ∧
      paths.Pairwise (· < ·) := by
  induction candidates generalizing previous paths with
  | nil =>
    cases run
    exact ⟨rfl, by simp, by simp, Pairwise.nil⟩
  | cons candidate rest ih =>
    unfold snapshotPaths at run
    split at run
    · cases run
    split at run
    · cases run
    rename_i canonical accepted
    split at run
    · cases run
    rename_i checks
    simp only [not_or, not_not, not_exists, not_and, ne_eq] at checks
    obtain ⟨rfl, -, -, order⟩ := checks
    cases later : snapshotPaths limits (some canonical) rest with
    | error e =>
      rw [later] at run
      cases run
    | ok others =>
      rw [later] at run
      cases run
      obtain ⟨rfl, allCanonical, above, increasing⟩ := ih later
      have first := above canonical rfl
      refine ⟨rfl, forall_mem_cons.mpr ⟨accepted, allCanonical⟩, ?_,
        pairwise_cons.mpr ⟨first, increasing⟩⟩
      intro before member
      have here := order before member
      exact forall_mem_cons.mpr ⟨here, fun path inRest =>
        List.lt_trans here (first path inRest)⟩

/-- The ignore files that a run visits, none in a verified tracked set. -/
def ignoreFilesOf (collation : Collation) (fallback : Bool) (paths : List RelativePath) :
    List RelativePath :=
  if fallback then ignoreFiles collation paths else []

theorem mem_ignoreFiles :
    file ∈ ignoreFiles collation paths ↔ file ∈ paths ∧ isIgnoreFile file = true := by
  rw [ignoreFiles, mem_insertionSort, mem_filter]

theorem ignoreFiles_sorted (collation : Collation) (paths : List RelativePath) :
    (ignoreFiles collation paths).Pairwise fun first second => pathDepth first ≤ pathDepth second := by
  have := collation.lawful
  have lawful : Std.TransCmp (compareIgnoreFiles collation) :=
    inferInstanceAs (Std.TransCmp (compareLex (compareOn pathDepth) collation.localeCompare))
  have total : Std.Total fun left right => (compareIgnoreFiles collation left right).isLE = true := by
    refine ⟨fun left right => ?_⟩
    have swap : compareIgnoreFiles collation right left =
        (compareIgnoreFiles collation left right).swap := Std.OrientedCmp.eq_swap
    rw [swap]
    cases compareIgnoreFiles collation left right <;> decide
  have trans : IsTrans _ fun left right => (compareIgnoreFiles collation left right).isLE = true :=
    ⟨fun _ _ _ => Std.TransCmp.isLE_trans⟩
  refine (pairwise_insertionSort _ _).imp fun {first second} order => ?_
  have depth : (compareOn pathDepth first second).isLE = true :=
    (Ordering.isLE_then_iff_and.mp order).1
  exact Nat.isLE_compare.mp depth

theorem visited_ignoreFilesOf (collation : Collation) (fallback : Bool)
    (canonical : ∀ path ∈ paths, canonicalizeRepositoryRelativePath path .posix = .ok path)
    (nodup : paths.Nodup) : Visited (ignoreFilesOf collation fallback paths) := by
  cases fallback with
  | false => exact ⟨by simp [ignoreFilesOf], Pairwise.nil, nodup_nil⟩
  | true =>
    refine ⟨fun file member => ?_, ignoreFiles_sorted collation paths,
      (perm_insertionSort _ _).nodup_iff.mpr (nodup.filter _)⟩
    obtain ⟨inPaths, named⟩ := mem_ignoreFiles.mp member
    exact baseOfIgnoreFile_eq (canonical file inPaths) named

/-! ## Completed runs -/

/-- The entry of an excluded path. -/
def ignoredDecision (fallback : Bool) (path : RelativePath) (rule : InternalRule) :
    IgnoredPathDecision where
  certainty := if fallback ∧ rule.rule.source.kind = .gitignore then .trackingUncertain else .known
  path := path
  ruleId := rule.rule.id

/-- The entry does not show the number of the rule. -/
theorem map_ignoredDecision {rule other : Option InternalRule}
    (same : rule.map ruleContent = other.map ruleContent) (fallback : Bool) (path : RelativePath) :
    rule.map (ignoredDecision fallback path) = other.map (ignoredDecision fallback path) := by
  have mapped := congrArg (Option.map (ignoredDecision fallback path)) same
  rw [Option.map_map, Option.map_map] at mapped
  exact mapped

/-- The result reports the decisions that the rules give. -/
structure Reports (result : IgnoreEngineResult) (fallback : Bool)
    (paths : List RelativePath) (rules : List InternalRule) : Prop where
  included : result.paths = paths.filter fun path => (excluding rules path true).isNone
  ignored : result.ignored = paths.filterMap fun path =>
    (excluding rules path true).map (ignoredDecision fallback path)

theorem computes_decidePaths (fallback : Bool) {rules : List InternalRule}
    (numbered : Numbered rules) (paths : List RelativePath) :
    Computes consume (decidePaths fallback rules paths)
      (paths.filter fun path => (excluding rules path true).isNone, paths.filterMap fun path =>
          (excluding rules path true).map (ignoredDecision fallback path)) := by
  induction paths with
  | nil => exact computes_pure _
  | cons path rest ih =>
    unfold decidePaths
    refine (computes_charge 1).bind ((computes_excludedBy numbered path true).bind (ih.bind ?_))
    rw [filter_cons, filterMap_cons]
    cases excluding rules path true with
    | none => exact computes_pure _
    | some rule => exact computes_pure _

/-- Rules that decide alike, numbers aside, are reported alike. -/
theorem Reports.congr {fallback : Bool} (rules : List InternalRule) {others : List InternalRule}
    (reports : Reports result fallback paths rules)
    (same : ∀ path, (excluding rules path true).map ruleContent =
      (excluding others path true).map ruleContent) : Reports result fallback paths others := by
  have decision := fun path => map_ignoredDecision (same path) fallback path
  have none : ∀ path, (excluding rules path true).isNone = (excluding others path true).isNone := by
    intro path
    rw [← Option.isNone_map, same path, Option.isNone_map]
  exact ⟨by simp only [reports.included, none], by simp only [reports.ignored, decision]⟩

theorem snapshotArray_eq_ok {α : Type} {values out : List α} {maximum : Nat} {operation : String}
    (run : snapshotArray values maximum operation = .ok out) : out = values := by
  unfold snapshotArray at run
  split at run <;> cases run
  rfl

theorem snapshotEnumeration_eq_ok {input : EnumerationSnapshot}
    (run : snapshotEnumeration enumeration limits = .ok input) :
    input.fallback = enumeration.fallback ∧ input.paths = enumeration.paths ∧
      (∀ path ∈ enumeration.paths, canonicalizeRepositoryRelativePath path .posix = .ok path) ∧
      enumeration.paths.Nodup := by
  obtain ⟨candidates, taken, run⟩ := bind_eq_ok.mp run
  obtain ⟨paths, accepted, run⟩ := bind_eq_ok.mp run
  obtain ⟨_, -, run⟩ := bind_eq_ok.mp run
  obtain ⟨_, -, run⟩ := bind_eq_ok.mp run
  cases run
  cases snapshotArray_eq_ok taken
  obtain ⟨rfl, canonical, -, increasing⟩ := snapshotPaths_eq_ok accepted
  refine ⟨rfl, rfl, canonical, increasing.imp ?_⟩
  rintro path _ order rfl
  exact List.lt_irrefl path order

/-- Every completed run reports what the rules of all ignore files decide. -/
theorem applyIgnoreRulesWith_eq_ok
    {round : IgnoreEngineLimits → ReadOnlyRepository → FileRound}
    (loadsOrSkips : ∀ limits repository, LoadsOrSkips limits repository (round limits repository))
    {interruption : Nat → Option IgnoreEngineError} {repository : ReadOnlyRepository} {options : OptionsSnapshot}
    (run : applyIgnoreRulesWith collation round interruption repository enumeration options =
      .ok result) :
    Visited (ignoreFilesOf collation enumeration.fallback enumeration.paths) ∧
      Reports result enumeration.fallback enumeration.paths
        (rulesOfFiles options.limits repository (suppliedLines options)
          (ignoreFilesOf collation enumeration.fallback enumeration.paths)) := by
  obtain ⟨input, snapshot, run⟩ := bind_eq_ok.mp run
  obtain ⟨fallback, paths, canonical, nodup⟩ :=
    snapshotEnumeration_eq_ok (mapError_eq_ok.mp snapshot)
  obtain ⟨⟨_, started⟩, -, run⟩ := bind_eq_ok.mp run
  obtain ⟨supplied, added, run⟩ := bind_eq_ok.mp run
  obtain ⟨⟨table, loadedBudget⟩, loads, run⟩ := bind_eq_ok.mp run
  obtain ⟨⟨⟨included, ignored⟩, decidedBudget⟩, decides, run⟩ := bind_eq_ok.mp run
  obtain ⟨_, -, run⟩ := bind_eq_ok.mp run
  cases run
  have visited := visited_ignoreFilesOf collation enumeration.fallback canonical nodup
  refine ⟨visited, ?_⟩
  have holds : Holds options.limits supplied (suppliedLines options) := by
    have added := mapError_eq_ok.mp added
    exact @Holds.addRules _ _ _ [] _ ⟨rfl, rfl⟩ added
  have looped : (ignoreFilesOf collation enumeration.fallback enumeration.paths).foldlM
      (fun table path => round options.limits repository path table) supplied started =
        .ok (table, loadedBudget) := by
    unfold loadIgnoreFiles at loads
    rw [fallback, paths] at loads
    unfold ignoreFilesOf
    split at loads
    · rename_i isFallback
      rw [if_pos isFallback]
      dsimp only at loads
      split at loads
      · cases loads
      · exact loads
    · rename_i tracked
      rw [if_neg tracked]
      exact loads
  obtain ⟨loaded, sublist, holdsLoaded, skipped⟩ :=
    foldlM_round (loadsOrSkips options.limits repository) visited.placed visited.sorted holds looped
  have numbered : Numbered table.rules := holdsLoaded.rules ▸ numbered_rulesOf 0 _
  have values := (computes_decidePaths input.fallback numbered input.paths).eq_of_run
    (budgeted_eq_ok decides)
  obtain ⟨rfl, rfl⟩ := Prod.mk.inj values
  refine Reports.congr table.rules ?_ ?_
  · rw [← fallback, ← paths]
    exact ⟨rfl, rfl⟩
  · rw [holdsLoaded.rules] at skipped ⊢
    exact excluding_loaded visited sublist skipped

/-! ## Repositories that agree above a path -/

/-- The text of an ignore file that is enumerated and can be read. -/
def ignoreFileContent (repository : ReadOnlyRepository) (enumeration : TrackedFileEnumeration)
    (file : RelativePath) : Option Text :=
  if file ∈ enumeration.paths then ignoreFileText repository file else none

/-- Both repositories have the same ignore files in the directories above the path. -/
structure AgreeAbove (path : RelativePath) (repository : ReadOnlyRepository)
    (enumeration : TrackedFileEnumeration) (repository' : ReadOnlyRepository)
    (enumeration' : TrackedFileEnumeration) : Prop where
  fallback : enumeration.fallback = enumeration'.fallback
  content : ∀ base file, IgnoreFileIn base file → Below path base →
    ignoreFileContent repository enumeration file =
      ignoreFileContent repository' enumeration' file

section Agreement

variable {path : RelativePath}

variable {file : RelativePath}

theorem eq_of_pathDepth_eq {base other file' : RelativePath} (located : IgnoreFileIn base file)
    (located' : IgnoreFileIn other file') (below : Below path base) (below' : Below path other)
    (depth : pathDepth file = pathDepth file') : file = file' := by
  have segments : ∀ {directory}, Below path directory → directory ≠ repositoryRoot →
      directory = joinSegments ((pathSegments path).take (pathDepth directory)) := by
    intro directory below notRoot
    obtain ⟨rest, rfl⟩ := below.resolve_left notRoot
    rw [pathSegments_append, pathDepth, take_left, joinSegments_pathSegments]
  have positive : ∀ directory, 0 < pathDepth directory := fun directory =>
    length_pos_iff.mpr (pathSegments_ne_nil directory)
  rw [located.pathDepth, located'.pathDepth] at depth
  have same : base = other := by
    have := positive base
    have := positive other
    split_ifs at depth with root root' root'
    · exact root.trans root'.symm
    · omega
    · omega
    · rw [segments below root, segments below' root', Nat.succ_injective depth]
  subst same
  rcases located with ⟨root, rfl⟩ | ⟨notRoot, rfl⟩
  · exact (located'.resolve_right fun nested => nested.1 root).2.symm
  · exact (located'.resolve_left fun top => notRoot top.1).2.symm

def textFiles (repository : ReadOnlyRepository) (files : List RelativePath)
    (path : RelativePath) : List RelativePath :=
  files.filter fun file => governs path file && (ignoreFileText repository file).isSome

theorem governingLines_eq_textFiles (repository : ReadOnlyRepository) (files : List RelativePath) :
    governingLines repository files path =
      (textFiles repository files path).flatMap (fileLines repository) := by
  unfold governingLines textFiles
  induction files with
  | nil => rfl
  | cons file rest ih =>
    rw [filter_cons, filter_cons]
    cases governing : governs path file with
    | false => simpa using ih
    | true =>
      cases text : ignoreFileText repository file with
      | some text => simp [ih]
      | none =>
        have nothing : fileLines repository file = [] := by
          unfold fileLines
          rw [text]
          split <;> simp_all
        simp [ih, nothing]

variable {collation : Collation} {repository repository' : ReadOnlyRepository}
  {enumeration enumeration' : TrackedFileEnumeration}

section

variable (visited : Visited (ignoreFilesOf collation enumeration.fallback enumeration.paths))

include visited

theorem mem_textFiles_of_agree
    (agree : AgreeAbove path repository enumeration repository' enumeration')
    (member : file ∈ textFiles repository (ignoreFilesOf collation enumeration.fallback enumeration.paths) path) :
    file ∈ textFiles repository'
        (ignoreFilesOf collation enumeration'.fallback enumeration'.paths) path ∧
      fileLines repository file = fileLines repository' file := by
  obtain ⟨inFiles, kept⟩ := mem_filter.mp member
  obtain ⟨governing, hasText⟩ := (Bool.and_eq_true _ _).mp kept
  obtain ⟨base, based, located⟩ := visited.placed file inFiles
  unfold ignoreFilesOf at inFiles ⊢
  rw [← agree.fallback]
  split at inFiles
  · rename_i isFallback
    obtain ⟨inPaths, named⟩ := mem_ignoreFiles.mp inFiles
    obtain ⟨text, textEq⟩ := Option.isSome_iff_exists.mp hasText
    have content := agree.content base file located ((governs_iff based).mp governing)
    rw [ignoreFileContent, ignoreFileContent, if_pos inPaths, textEq] at content
    split at content
    · rename_i inPaths'
      refine ⟨?_, by rw [fileLines, fileLines, textEq, ← content]⟩
      rw [if_pos isFallback]
      refine mem_filter.mpr ⟨mem_ignoreFiles.mpr ⟨inPaths', named⟩, ?_⟩
      rw [governing, ← content]
      rfl
    · cases content
  · cases inFiles

/-- Repositories that agree above a path give it the same lines. -/
theorem governingLines_congr
    (visited' : Visited (ignoreFilesOf collation enumeration'.fallback enumeration'.paths))
    (agree : AgreeAbove path repository enumeration repository' enumeration') :
    governingLines repository (ignoreFilesOf collation enumeration.fallback enumeration.paths) path =
      governingLines repository'
        (ignoreFilesOf collation enumeration'.fallback enumeration'.paths) path := by
  have agree' : AgreeAbove path repository' enumeration' repository enumeration :=
    ⟨agree.fallback.symm, fun base file located below => (agree.content base file located below).symm⟩
  have files : textFiles repository
        (ignoreFilesOf collation enumeration.fallback enumeration.paths) path =
      textFiles repository'
        (ignoreFilesOf collation enumeration'.fallback enumeration'.paths) path := by
    refine @List.Perm.eq_of_pairwise _ (fun first second => pathDepth first ≤ pathDepth second) _ _
      ?_ (visited.sorted.filter _) (visited'.sorted.filter _)
      ((perm_ext_iff_of_nodup (visited.nodup.filter _) (visited'.nodup.filter _)).mpr
        fun file => ⟨fun member => (mem_textFiles_of_agree visited agree member).1,
          fun member => (mem_textFiles_of_agree visited' agree' member).1⟩)
    intro file file' member member' order order'
    obtain ⟨inFiles, kept⟩ := mem_filter.mp member
    obtain ⟨inFiles', kept'⟩ := mem_filter.mp member'
    obtain ⟨base, based, located⟩ := visited.placed file inFiles
    obtain ⟨base', based', located'⟩ := visited'.placed file' inFiles'
    exact eq_of_pathDepth_eq located located'
      ((governs_iff based).mp ((Bool.and_eq_true _ _).mp kept).1)
      ((governs_iff based').mp ((Bool.and_eq_true _ _).mp kept').1) (Nat.le_antisymm order order')
  rw [governingLines_eq_textFiles, governingLines_eq_textFiles, ← files]
  exact flatMap_congr fun file member => (mem_textFiles_of_agree visited agree member).2

end

end Agreement

/-! ## Skipping is sound -/

section Reported

variable {result : IgnoreEngineResult} {fallback : Bool} {paths : List RelativePath}
  {rules : List InternalRule}

theorem Reports.mem_paths (reports : Reports result fallback paths rules) {path : RelativePath}
    (member : path ∈ paths) : path ∈ result.paths ↔ excluding rules path true = none := by
  rw [reports.included, mem_filter, and_iff_right member, Option.isNone_iff_eq_none]

theorem Reports.mem_ignored (reports : Reports result fallback paths rules)
    {decision : IgnoredPathDecision} (member : decision.path ∈ paths) :
    decision ∈ result.ignored ↔
      (excluding rules decision.path true).map (ignoredDecision fallback decision.path) =
        some decision := by
  rw [reports.ignored, mem_filterMap]
  constructor
  · rintro ⟨path, -, eq⟩
    obtain ⟨rule, -, rfl⟩ := Option.map_eq_some_iff.mp eq
    exact eq
  · exact fun eq => ⟨decision.path, member, eq⟩

end Reported

/-- A completed run decides as the rules of all ignore files do, and like the engine that
loads every ignore file; on a path that another repository also has it decides like the run
there when both agree on the ignore files above the path. -/
theorem applyIgnoreRulesWithClock_skips {collation : Collation}
    {interruption : Nat → Option IgnoreEngineError} {repository : ReadOnlyRepository}
    {enumeration : TrackedFileEnumeration} {options : OptionsSnapshot} {result : IgnoreEngineResult}
    (run : applyIgnoreRulesWithClock collation interruption repository enumeration options =
      .ok result) :
    Reports result enumeration.fallback enumeration.paths
        (rulesOfFiles options.limits repository (suppliedLines options)
          (ignoreFilesOf collation enumeration.fallback enumeration.paths)) ∧
      (∀ interruption' every,
        applyIgnoreRulesLoadingEvery collation interruption' repository enumeration options =
            .ok every →
          result.paths = every.paths ∧ result.ignored = every.ignored) ∧
      ∀ interruption' repository' enumeration' result',
        applyIgnoreRulesWithClock collation interruption' repository' enumeration' options =
            .ok result' →
          ∀ path ∈ enumeration.paths, path ∈ enumeration'.paths →
            AgreeAbove path repository enumeration repository' enumeration' →
              (path ∈ result.paths ↔ path ∈ result'.paths) ∧
              ∀ decision : IgnoredPathDecision, decision.path = path →
                (decision ∈ result.ignored ↔ decision ∈ result'.ignored) := by
  obtain ⟨visited, reports⟩ := applyIgnoreRulesWith_eq_ok visitIgnoreFile_loadsOrSkips run
  refine ⟨reports, ?_, ?_⟩
  · intro interruption' every runEvery
    have everyReports :=
      (applyIgnoreRulesWith_eq_ok visitEveryIgnoreFile_loadsOrSkips runEvery).2
    exact ⟨reports.included.trans everyReports.included.symm,
      reports.ignored.trans everyReports.ignored.symm⟩
  · intro interruption' repository' enumeration' result' run' path member member' agree
    obtain ⟨visited', reports'⟩ := applyIgnoreRulesWith_eq_ok visitIgnoreFile_loadsOrSkips run'
    have same := excluding_of_governingLines options.limits (suppliedLines options)
      (governingLines_congr visited visited' agree) true
    constructor
    · rw [reports.mem_paths member, reports'.mem_paths member', ← Option.map_eq_none_iff, same,
        Option.map_eq_none_iff]
    · rintro decision rfl
      rw [reports.mem_ignored member, reports'.mem_ignored member',
        map_ignoredDecision same enumeration.fallback]
      simp only [agree.fallback]

/-- Strings in the order of their code units. -/
def codeUnitCollation : Collation := ⟨List.compareLex compare, inferInstance⟩

/-- A repository of two ignore files, the inner one below an excluded directory. -/
def twoIgnoreFiles : ReadOnlyRepository :=
  let bytes (path : RelativePath) : List UInt8 :=
    if path = js ".gitignore" then Utf8.encode (js "foo/\n*.log\n") else Utf8.encode (js "!bar\n")
  let identity : ReadOnlyRepositoryIdentity := ⟨js "1", js "2"⟩
  { inspect := fun path => .ok ⟨identity, 0, path, (bytes path).length, .file⟩
    readFile := fun path => .ok ⟨identity, 0, path, (bytes path).length, bytes path⟩ }

def twoIgnoreFilesEnumeration : TrackedFileEnumeration where
  fallback := true
  omittedProblems := 0
  paths := [js ".gitignore", js "a.log", js "b", js "foo/.gitignore", js "foo/bar"]
  problems := []

/-- The ignore file in an ignored directory is not loaded. -/
theorem applyIgnoreRulesWithClock_skips_foo :
    ∃ result every,
      applyIgnoreRulesWithClock codeUnitCollation (fun _ => none) twoIgnoreFiles
        twoIgnoreFilesEnumeration ⟨[], ignoreEngineDefaultLimits, []⟩ = .ok result ∧
      applyIgnoreRulesLoadingEvery codeUnitCollation (fun _ => none) twoIgnoreFiles
        twoIgnoreFilesEnumeration ⟨[], ignoreEngineDefaultLimits, []⟩ = .ok every ∧
      result.rules.length ≠ every.rules.length ∧ result.paths = [js ".gitignore", js "b"] ∧
      result.paths = every.paths ∧ result.ignored = every.ignored := by
  have run : (applyIgnoreRulesWithClock codeUnitCollation (fun _ => none) twoIgnoreFiles
      twoIgnoreFilesEnumeration ⟨[], ignoreEngineDefaultLimits, []⟩).map
        (fun result => (result.rules.length, result.paths)) =
          .ok (23, [js ".gitignore", js "b"]) := by decide +kernel
  have runEvery : (applyIgnoreRulesLoadingEvery codeUnitCollation (fun _ => none) twoIgnoreFiles
      twoIgnoreFilesEnumeration ⟨[], ignoreEngineDefaultLimits, []⟩).map (·.rules.length) =
        .ok 24 := by decide +kernel
  obtain ⟨result, run, shape⟩ := eq_ok_of_map run
  obtain ⟨every, runEvery, rules⟩ := eq_ok_of_map runEvery
  obtain ⟨skippedRules, paths⟩ := Prod.mk.inj shape
  exact ⟨result, every, run, runEvery, by rw [skippedRules, rules]; decide, paths,
    (applyIgnoreRulesWithClock_skips run).2.1 _ every runEvery⟩

end AgentContextLint.IgnoreEngine
