import AgentContextLint.Evidence.IgnoreDecision

/-!
# Loading nested ignore files

The engine skips an ignore file whose directory is excluded by the rules loaded so far. That
is sound: rules of files visited later never reach such a directory (`not_below_of_pathDepth`),
so it stays excluded (`foldlM_round`), and an excluded directory excludes everything below it
whatever its own file says. The rules of a run and the rules of all files therefore decide
alike (`excluding_loaded`).

`ruleOfLine` is a rule without its number, which is all of it that a decision depends on.
-/

namespace AgentContextLint.IgnoreEngine

open Utf16 Metered List

open RepositoryPath
open IgnoreEngine (addRules pathDepth)

/-! ## Rules of lines -/

section Lines

variable (limits : IgnoreEngineLimits) (problem : IgnoreEngineProblem)

/-- The rules of lines, numbered behind `sequence`. -/
def rulesOf : (sequence : Nat) → List RuleLine → List InternalRule
  | _, [] => []
  | sequence, line :: rest =>
    match makeRule line.raw line.source line.base (sequence + 1) limits with
    | .ok (some rule) => rule :: rulesOf (sequence + 1) rest
    | _ => rulesOf sequence rest

/-- The rule of a line, without a number. -/
def ruleOfLine (line : RuleLine) : Option InternalRule :=
  match makeRule line.raw line.source line.base 0 limits with
  | .ok (some rule) => some (ruleContent rule)
  | _ => none

/-- The table holds the rules of the lines. -/
structure Holds (table : RuleTable) (lines : List RuleLine) : Prop where
  rules : table.rules = rulesOf limits 0 lines
  sequence : table.sourceSequence = table.rules.length

variable {limits}

theorem rulesOf_append (sequence : Nat) (first second : List RuleLine) :
    rulesOf limits sequence (first ++ second) = rulesOf limits sequence first ++
      rulesOf limits (sequence + (rulesOf limits sequence first).length) second := by
  induction first generalizing sequence with
  | nil => rfl
  | cons line rest ih =>
    rw [cons_append, rulesOf, rulesOf]
    split
    · rw [ih, length_cons, cons_append, Nat.add_assoc, Nat.add_comm 1]
    · exact ih sequence

variable {source : IgnoreRuleSource} {sequence : Nat} {rule : InternalRule}

theorem makeRule_sequence {raw : Text} {base : RelativePath}
    (made : makeRule raw source base sequence limits = .ok (some rule)) :
    rule.sourceSequence = sequence ∧ rule.rule.basePath = base := by
  rw [makeRule_eq_ok made]
  exact ⟨rfl, rfl⟩

theorem forall_mem_rulesOf {lines : List RuleLine} :
    ∀ rule ∈ rulesOf limits sequence lines, sequence < rule.sourceSequence ∧
      ∃ line ∈ lines, rule.rule.basePath = line.base := by
  induction lines generalizing sequence with
  | nil => simp [rulesOf]
  | cons line rest ih =>
    rw [rulesOf]
    split
    · rename_i rule made
      obtain ⟨number, base⟩ := makeRule_sequence made
      refine forall_mem_cons.mpr ⟨⟨by omega, line, mem_cons_self, base⟩, ?_⟩
      intro later member
      obtain ⟨above, other, inRest, base⟩ := ih later member
      exact ⟨by omega, other, mem_cons_of_mem _ inRest, base⟩
    · intro later member
      obtain ⟨above, other, inRest, base⟩ := ih later member
      exact ⟨above, other, mem_cons_of_mem _ inRest, base⟩

theorem numbered_rulesOf (sequence : Nat) (lines : List RuleLine) :
    Numbered (rulesOf limits sequence lines) := by
  induction lines generalizing sequence with
  | nil => exact Pairwise.nil
  | cons line rest ih =>
    rw [rulesOf]
    split
    · rename_i rule made
      refine pairwise_cons.mpr ⟨fun later member => ?_, ih _⟩
      rw [(makeRule_sequence made).1]
      exact (forall_mem_rulesOf later member).1
    · exact ih sequence

variable (limits) in
/-- Behind a line number the number of a rule leaves no trace in its content. -/
theorem makeRule_content (raw : Text) (base : RelativePath)
    (numbered : source.line.isSome = true) (sequence other : Nat) :
    (makeRule raw source base sequence limits).map (Option.map ruleContent) =
      (makeRule raw source base other limits).map (Option.map ruleContent) := by
  obtain ⟨line, eq⟩ := Option.isSome_iff_exists.mp numbered
  unfold makeRule
  cases safePatternText raw limits with
  | error e => rfl
  | ok _ =>
    change Except.ok (Option.map _ (ite _ _ _)) = Except.ok (Option.map _ (ite _ _ _))
    split
    · rfl
    · simp [ruleContent, ruleOfText, ruleId, eq]

variable {table later : RuleTable} {lines : List RuleLine}

theorem rulesOf_content (numbered : ∀ line ∈ lines, line.source.line.isSome = true) (sequence : Nat)
    : (rulesOf limits sequence lines).map ruleContent = lines.filterMap (ruleOfLine limits) := by
  induction lines generalizing sequence with
  | nil => rfl
  | cons line rest ih =>
    obtain ⟨here, numbered⟩ := forall_mem_cons.mp numbered
    have same := makeRule_content limits line.raw line.base here (sequence + 1) 0
    rw [rulesOf, filterMap_cons, ruleOfLine]
    generalize makeRule line.raw line.source line.base 0 limits = bare at same
    generalize makeRule line.raw line.source line.base (sequence + 1) limits = made at same
    rcases bare with _ | _ | bare <;> rcases made with _ | _ | made <;>
      simp only [Except.map, Option.map_some, Option.map_none, reduceCtorEq, Except.ok.injEq,
        Option.some.injEq] at same <;>
      simp [ih numbered, same]

/-- The line applies inside a directory that contains the path. -/
def lineInScope (path : RelativePath) (line : RuleLine) : Bool :=
  (relativeToBase path line.base).isSome

variable {line : RuleLine}

theorem ruleOfLine_base (made : ruleOfLine limits line = some rule) :
    rule.rule.basePath = line.base := by
  unfold ruleOfLine at made
  split at made
  · rename_i full madeFull
    cases made
    exact (makeRule_sequence madeFull).2
  · cases made

theorem rulesOf_inScope (numbered : ∀ line ∈ lines, line.source.line.isSome = true) (sequence : Nat)
    (path : RelativePath) :
    ((rulesOf limits sequence lines).filter (inScope path)).map ruleContent =
      (lines.filter (lineInScope path)).filterMap (ruleOfLine limits) := by
  have scope : inScope path = inScope path ∘ ruleContent := rfl
  rw [scope, ← filter_map, rulesOf_content numbered]
  clear numbered
  induction lines with
  | nil => rfl
  | cons line rest ih =>
    rw [filterMap_cons]
    cases made : ruleOfLine limits line with
    | none =>
      rw [filter_cons]
      simp only [ih]
      split
      · rw [filterMap_cons, made]
      · rfl
    | some rule =>
      have same : inScope path rule = lineInScope path line := by
        rw [inScope, lineInScope, ruleOfLine_base made]
      simp only [filter_cons, same]
      split
      · rw [filterMap_cons, made, ← ih]
      · exact ih

/-! ## Adding rules -/

theorem consumePatternBytes_eq_ok {amount : Nat}
    (consumed : consumePatternBytes limits amount table = .ok later) :
    later.rules = table.rules ∧ later.sourceSequence = table.sourceSequence := by
  unfold consumePatternBytes at consumed
  split at consumed <;> cases consumed
  exact ⟨rfl, rfl⟩

@[simp] theorem recordProblem_rules (table : RuleTable) :
    (recordProblem limits problem table).rules = table.rules := by
  unfold recordProblem
  split <;> rfl

@[simp] theorem recordProblem_sourceSequence (table : RuleTable) :
    (recordProblem limits problem table).sourceSequence = table.sourceSequence := by
  unfold recordProblem
  split <;> rfl

theorem Holds.of_same (holds : Holds limits table lines) (rules : later.rules = table.rules)
    (sequence : later.sourceSequence = table.sourceSequence) : Holds limits later lines :=
  ⟨rules.trans holds.rules, by rw [sequence, rules, holds.sequence]⟩

theorem Holds.addRule (holds : Holds limits table lines)
    (added : addRule limits table line = .ok later) : Holds limits later (lines ++ [line]) := by
  unfold IgnoreEngine.addRule at added
  obtain ⟨counted, consumed, added⟩ := bind_eq_ok.mp added
  have holds : Holds limits counted lines := by
    unfold countLine at consumed
    split at consumed
    · obtain ⟨rules, sequence⟩ := consumePatternBytes_eq_ok consumed
      exact holds.of_same rules sequence
    · cases consumed
      exact holds
  obtain ⟨made, make, added⟩ := bind_eq_ok.mp added
  have sequence : 0 + (rulesOf limits 0 lines).length + 1 = counted.sourceSequence + 1 := by
    rw [holds.sequence, holds.rules, Nat.zero_add]
  cases made with
  | none =>
    cases added
    refine ⟨?_, holds.sequence⟩
    rw [rulesOf_append, rulesOf, sequence, make, holds.rules]
    exact (append_nil _).symm
  | some rule =>
    dsimp only at added
    split at added
    · cases added
    · have result : later.rules = counted.rules ++ [rule] ∧
          later.sourceSequence = counted.sourceSequence + 1 := by
        cases added
        split <;> simp
      refine ⟨?_, by rw [result.1, result.2, holds.sequence, length_append]; rfl⟩
      rw [rulesOf_append, rulesOf, sequence, make, result.1, holds.rules]
      rfl

theorem Holds.addRules {lines more : List RuleLine} (holds : Holds limits table lines)
    (added : addRules limits table more = .ok later) : Holds limits later (lines ++ more) := by
  induction more generalizing table lines with
  | nil =>
    cases added
    rwa [append_nil]
  | cons line rest ih =>
    rw [addRules, foldlM_cons] at added
    obtain ⟨next, first, added⟩ := bind_eq_ok.mp added
    have whole := ih (holds.addRule first) added
    rwa [append_assoc, singleton_append] at whole

end Lines

/-! ## Files -/

/-- The text of an ignore file, where it can be had: a regular file behind no link, in safe
UTF-8. -/
def ignoreFileText (repository : ReadOnlyRepository) (path : RelativePath) : Option Text :=
  match repository.inspect path, repository.readFile path with
  | .ok inspected, .ok file =>
    if inspected.type = .file ∧ inspected.linkDepth = 0 then
      (decodeIgnoreFile file.bytes path).toOption
    else none
  | _, _ => none

/-- The lines that loading an ignore file adds. -/
def fileLines (repository : ReadOnlyRepository) (path : RelativePath) : List RuleLine :=
  match baseOfIgnoreFile path, ignoreFileText repository path with
  | .ok base, some text => ignoreFileLines path base text
  | _, _ => []

theorem forall_mem_fileLines {repository : ReadOnlyRepository} {path : RelativePath} :
    ∀ line ∈ fileLines repository path,
      line.source.line.isSome = true ∧ baseOfIgnoreFile path = .ok line.base := by
  intro line member
  unfold fileLines at member
  split at member
  · rename_i base text baseEq textEq
    obtain ⟨_, -, rfl⟩ := mem_map.mp member
    exact ⟨rfl, baseEq⟩
  · cases member

/-- `base` is the directory of the ignore file `path`. -/
def IgnoreFileIn (base path : RelativePath) : Prop :=
  (base = repositoryRoot ∧ path = js ".gitignore") ∨
    (base ≠ repositoryRoot ∧ path = base ++ 0x2f :: js ".gitignore")

section Directories

variable {base path : RelativePath}

theorem pathSegments_gitignore : pathSegments (js ".gitignore") = [js ".gitignore"] := by decide

theorem IgnoreFileIn.pathDepth (located : IgnoreFileIn base path) :
    pathDepth path = if base = repositoryRoot then 1 else pathDepth base + 1 := by
  rcases located with ⟨rfl, rfl⟩ | ⟨notRoot, rfl⟩
  · rw [if_pos rfl, pathDepth, pathSegments_gitignore]
    rfl
  · rw [if_neg notRoot, pathDepth, pathSegments_append, pathSegments_gitignore]
    exact length_append

theorem canonicalize_directory {rest : Text}
    (canonical : canonicalizeRepositoryRelativePath (base ++ 0x2f :: rest) .posix =
      .ok (base ++ 0x2f :: rest)) :
    canonicalizeRepositoryRelativePath base .posix = .ok base ∧ base ≠ repositoryRoot := by
  obtain ⟨accepted, kept⟩ := canonicalize_eq_ok.mp canonical
  have segmentsCanonical := accepted.canonical
  by_cases none : keptSegments .posix (base ++ 0x2f :: rest) = []
  · rw [if_pos none] at kept
    have slash : (0x2f : CodeUnit) ∈ repositoryRoot := by
      rw [← kept]
      exact mem_append_right _ mem_cons_self
    simp [repositoryRoot, js, ofChar] at slash
  · rw [if_neg none] at kept
    have split : pathSegments base ++ pathSegments rest =
        keptSegments .posix (base ++ 0x2f :: rest) := by
      rw [← pathSegments_append]
      conv_lhs => rw [kept]
      exact pathSegments_joinSegments segmentsCanonical none
    obtain ⟨first, others, segments⟩ := exists_cons_of_ne_nil (pathSegments_ne_nil base)
    have allCanonical : ∀ segment ∈ first :: others, Canonical segment := fun segment member =>
      segmentsCanonical segment (split ▸ mem_append_left _ (segments ▸ member))
    have joined : joinSegments (first :: others) = base := by
      rw [← segments, joinSegments_pathSegments]
    have noDrive : hasDrivePrefix first = false := by
      have whole := accepted.noDrivePrefix
      rwa [kept, ← split, segments, cons_append,
        hasDrivePrefix_joinSegments (allCanonical first mem_cons_self)] at whole
    refine ⟨?_, ?_⟩
    · rw [← joined]
      exact (canonicalize_joinSegments allCanonical .posix).mpr noDrive
    · rintro rfl
      have rootSegments : pathSegments repositoryRoot = [js "."] := by decide
      rw [rootSegments] at segments
      cases segments
      exact (allCanonical _ mem_cons_self).ne_dot rfl

theorem baseOfIgnoreFile_eq (canonical : canonicalizeRepositoryRelativePath path .posix = .ok path)
    (named : isIgnoreFile path = true) :
    ∃ base, baseOfIgnoreFile path = .ok base ∧ IgnoreFileIn base path := by
  rcases (Bool.or_eq_true _ _).mp named with root | nested
  · cases beq_iff_eq.mp root
    exact ⟨repositoryRoot, by decide, .inl ⟨rfl, rfl⟩⟩
  · obtain ⟨base, rfl⟩ := isSuffixOf_iff_suffix.mp nested
    have shape : base ++ js "/.gitignore" = base ++ 0x2f :: js ".gitignore" := rfl
    rw [shape] at canonical ⊢
    obtain ⟨baseCanonical, notRoot⟩ := canonicalize_directory canonical
    refine ⟨base, ?_, .inr ⟨notRoot, rfl⟩⟩
    rw [baseOfIgnoreFile, if_pos (mem_append_right _ mem_cons_self)]
    have cut : ((base ++ 0x2f :: js ".gitignore").reverse.dropWhile (· ≠ 0x2f)).tail.reverse =
        base := by
      have plain : ∀ u ∈ (js ".gitignore").reverse, decide (u ≠ 0x2f) = true :=
        all_eq_true.mp rfl
      rw [reverse_append, reverse_cons, append_assoc, dropWhile_append_of_pos plain]
      simp
    rw [cut, baseCanonical]

/-- A file visited no earlier does not reach the directory of one visited before. -/
theorem not_below_of_pathDepth {other file : RelativePath} (located : IgnoreFileIn base path)
    (later : IgnoreFileIn other file) (notRoot : base ≠ repositoryRoot)
    (order : pathDepth path ≤ pathDepth file) : ¬ Below base other := by
  intro below
  have depth := located.pathDepth
  have laterDepth := later.pathDepth
  rw [if_neg notRoot] at depth
  by_cases root : other = repositoryRoot
  · rw [if_pos root] at laterDepth
    have positive : 0 < pathDepth base :=
      length_pos_iff.mpr (pathSegments_ne_nil base)
    omega
  · rw [if_neg root] at laterDepth
    have shorter := below.pathDepth_lt root
    omega

end Directories

section Loading

variable {limits : IgnoreEngineLimits} {repository : ReadOnlyRepository}
  {path base : RelativePath} {table later : RuleTable} {lines : List RuleLine}

/-- A file without a text adds nothing. -/
theorem Holds.of_noText (holds : Holds limits table lines)
    (noText : ignoreFileText repository path = none) (rules : later.rules = table.rules)
    (sequence : later.sourceSequence = table.sourceSequence) :
    Holds limits later (lines ++ fileLines repository path) := by
  have none : fileLines repository path = [] := by
    unfold fileLines
    rw [noText]
    split <;> simp_all
  rw [none, append_nil]
  exact holds.of_same rules sequence

theorem unavailableIgnoreFile_eq_ok {cause : RepositoryFailure}
    (passed : unavailableIgnoreFile limits path cause table = .ok later) :
    later.rules = table.rules ∧ later.sourceSequence = table.sourceSequence := by
  unfold unavailableIgnoreFile at passed
  split at passed
  · cases passed
  · cases passed
    exact ⟨recordProblem_rules _ _, recordProblem_sourceSequence _ _⟩

theorem mapError_eq_ok {ε ε' α : Type} {f : ε → ε'} {x : Except ε α} {a : α} :
    x.mapError f = .ok a ↔ x = .ok a := by
  cases x <;> simp [Except.mapError]

theorem Holds.addIgnoreFile {inspected : ReadOnlyRepositoryEntry} {file : ReadOnlyRepositoryFile}
    (holds : Holds limits table lines) (located : baseOfIgnoreFile path = .ok base)
    (inspects : repository.inspect path = .ok inspected)
    (reads : repository.readFile path = .ok file)
    (regular : inspected.type = .file ∧ inspected.linkDepth = 0)
    (loaded : addIgnoreFile limits path base inspected file table = .ok later) :
    Holds limits later (lines ++ fileLines repository path) := by
  unfold IgnoreEngine.addIgnoreFile at loaded
  split at loaded
  · cases loaded
  split at loaded
  · cases loaded
  obtain ⟨counted, consumed, loaded⟩ := bind_eq_ok.mp (mapError_eq_ok.mp loaded)
  obtain ⟨text, decoded, added⟩ := bind_eq_ok.mp loaded
  have hasText : ignoreFileText repository path = some text := by
    unfold ignoreFileText
    rw [inspects, reads]
    simp [regular, decoded, Except.toOption]
  obtain ⟨rules, sequence⟩ := consumePatternBytes_eq_ok consumed
  rw [fileLines, located, hasText]
  exact (holds.of_same rules sequence).addRules added

/-- A completed visit of an ignore file adds its lines. -/
theorem Holds.loadIgnoreFile (holds : Holds limits table lines)
    (located : baseOfIgnoreFile path = .ok base)
    (loaded : loadIgnoreFile limits repository path base table = .ok later) :
    Holds limits later (lines ++ fileLines repository path) := by
  unfold IgnoreEngine.loadIgnoreFile at loaded
  cases inspects : repository.inspect path with
  | error cause =>
    rw [inspects] at loaded
    obtain ⟨rules, sequence⟩ := unavailableIgnoreFile_eq_ok loaded
    exact holds.of_noText (by rw [ignoreFileText, inspects]) rules sequence
  | ok inspected =>
    rw [inspects] at loaded
    dsimp only at loaded
    by_cases regular : inspected.type = .file ∧ inspected.linkDepth = 0
    · rw [if_neg (not_not.mpr regular.1), if_neg (not_not.mpr regular.2)] at loaded
      split at loaded
      · cases loaded
      cases reads : repository.readFile path with
      | error cause =>
        rw [reads] at loaded
        obtain ⟨rules, sequence⟩ := unavailableIgnoreFile_eq_ok loaded
        exact holds.of_noText (by rw [ignoreFileText, inspects, reads]) rules sequence
      | ok file =>
        rw [reads] at loaded
        exact holds.addIgnoreFile located inspects reads regular loaded
    · have noText : ignoreFileText repository path = none := by
        unfold ignoreFileText
        rw [inspects]
        split <;> simp_all
      split at loaded
      · cases loaded
        exact holds.of_noText noText (recordProblem_rules _ _) (recordProblem_sourceSequence _ _)
      split at loaded
      · cases loaded
        exact holds.of_noText noText (recordProblem_rules _ _) (recordProblem_sourceSequence _ _)
      · rename_i isFile noLink
        exact (regular ⟨not_not.mp isFile, not_not.mp noLink⟩).elim

end Loading

/-! ## Rounds of the file loop -/

theorem budgeted_eq_ok {α : Type} {x : Budgeted α} {a : α} {start finish : WorkBudget}
    (run : budgeted x start = .ok (a, finish)) : x start = .ok (a, finish) :=
  mapError_eq_ok.mp run

/-- A round adds the lines of its file, or skips a file in an excluded directory. -/
def LoadsOrSkips (limits : IgnoreEngineLimits) (repository : ReadOnlyRepository)
    (round : FileRound) : Prop :=
  ∀ path table lines budget later after, Holds limits table lines →
    round path table budget = .ok (later, after) →
      ∃ base, baseOfIgnoreFile path = .ok base ∧
        (Holds limits later (lines ++ fileLines repository path) ∨
          (later = table ∧ base ≠ repositoryRoot ∧
            (excluding table.rules base false).isSome = true))

section Rounds

variable (limits : IgnoreEngineLimits) (repository : ReadOnlyRepository)

theorem visitIgnoreFile_loadsOrSkips :
    LoadsOrSkips limits repository (visitIgnoreFile limits repository) := by
  intro path table lines budget later after holds run
  unfold visitIgnoreFile at run
  obtain ⟨_, checked, -, run⟩ := bind_run_eq_ok.mp run
  obtain ⟨base, based, basing, run⟩ := bind_run_eq_ok.mp run
  have located := mapError_eq_ok.mp (liftM_run_eq_ok.mp basing).1
  obtain ⟨excluded, decided, decides, run⟩ := bind_run_eq_ok.mp run
  have decides := budgeted_eq_ok decides
  have numbered : Numbered table.rules := holds.rules ▸ numbered_rulesOf 0 lines
  refine ⟨base, located, ?_⟩
  cases excluded with
  | none => exact .inl (holds.loadIgnoreFile located (liftM_run_eq_ok.mp run).1)
  | some rule =>
    have unchanged := (pure_run_eq_ok.mp run).1
    by_cases notRoot : base ≠ repositoryRoot
    · rw [excludedBase, if_pos notRoot] at decides
      have value := (computes_excludedBy numbered base false).eq_of_run decides
      exact .inr ⟨unchanged, notRoot, value ▸ rfl⟩
    · rw [excludedBase, if_neg notRoot] at decides
      cases (pure_run_eq_ok.mp decides).1

theorem visitEveryIgnoreFile_loadsOrSkips :
    LoadsOrSkips limits repository (visitEveryIgnoreFile limits repository) := by
  intro path table lines budget later after holds run
  unfold visitEveryIgnoreFile at run
  obtain ⟨_, checked, -, run⟩ := bind_run_eq_ok.mp run
  obtain ⟨base, _, located, run⟩ := bind_run_eq_ok.mp run
  have located := mapError_eq_ok.mp (liftM_run_eq_ok.mp located).1
  exact ⟨base, located, .inl (holds.loadIgnoreFile located (liftM_run_eq_ok.mp run).1)⟩

end Rounds

section Run

variable {limits : IgnoreEngineLimits} {repository : ReadOnlyRepository} {round : FileRound}
  {files : List RelativePath}

/-- Lines of files visited no earlier than `path` do not reach its directory. -/
theorem excluding_append_later {base path : RelativePath}
    (located : IgnoreFileIn base path) (notRoot : base ≠ repositoryRoot)
    (placed : ∀ file ∈ files, ∃ base, baseOfIgnoreFile file = .ok base ∧ IgnoreFileIn base file)
    (later : ∀ file ∈ files, pathDepth path ≤ pathDepth file) (lines : List RuleLine) :
    excluding (rulesOf limits 0 (lines ++ files.flatMap (fileLines repository))) base false =
      excluding (rulesOf limits 0 lines) base false := by
  have outside : ∀ sequence, (rulesOf limits sequence (files.flatMap (fileLines repository))).filter
      (inScope base) = [] := by
    intro sequence
    refine filter_eq_nil_iff.mpr fun rule member scope => ?_
    obtain ⟨-, line, inLines, ruleBase⟩ := forall_mem_rulesOf rule member
    obtain ⟨file, inFiles, inFile⟩ := mem_flatMap.mp inLines
    obtain ⟨other, otherBase, otherLocated⟩ := placed file inFiles
    have same := (forall_mem_fileLines line inFile).2
    rw [otherBase] at same
    cases same
    refine not_below_of_pathDepth located otherLocated notRoot (later file inFiles) ?_
    exact isSome_relativeToBase.mp (ruleBase ▸ scope)
  rw [← excluding_filter, rulesOf_append, filter_append, outside, append_nil, excluding_filter]

/-- A completed file loop: the rules are those of the files loaded, and every other file lies
in a directory that these rules exclude. -/
theorem foldlM_round (loadsOrSkips : LoadsOrSkips limits repository round)
    (placed : ∀ file ∈ files, ∃ base, baseOfIgnoreFile file = .ok base ∧ IgnoreFileIn base file)
    (sorted : files.Pairwise fun first second => pathDepth first ≤ pathDepth second)
    {table later : RuleTable} {lines : List RuleLine} {budget after : WorkBudget}
    (holds : Holds limits table lines)
    (run : files.foldlM (fun table path => round path table) table budget = .ok (later, after)) :
    ∃ loaded : List RelativePath, loaded.Sublist files ∧
      Holds limits later (lines ++ loaded.flatMap (fileLines repository)) ∧
      ∀ file ∈ files, file ∉ loaded → ∃ base, baseOfIgnoreFile file = .ok base ∧
        base ≠ repositoryRoot ∧ (excluding later.rules base false).isSome = true := by
  induction files generalizing table lines budget with
  | nil =>
    obtain ⟨rfl, -⟩ := pure_run_eq_ok.mp run
    exact ⟨[], Sublist.refl _, by simpa using holds, by simp⟩
  | cons path rest ih =>
    obtain ⟨first, sorted⟩ := pairwise_cons.mp sorted
    obtain ⟨⟨base, based, located⟩, restPlaced⟩ := forall_mem_cons.mp placed
    rw [foldlM_cons] at run
    obtain ⟨next, middle, visited, remaining⟩ := bind_run_eq_ok.mp run
    obtain ⟨base', based', step⟩ := loadsOrSkips path table lines budget next middle holds visited
    cases based.symm.trans based'
    rcases step with added | ⟨rfl, notRoot, excluded⟩
    · obtain ⟨loaded, sublist, holdsLater, skipped⟩ := ih restPlaced sorted added remaining
      refine ⟨path :: loaded, sublist.cons_cons path, ?_, ?_⟩
      · rwa [flatMap_cons, ← append_assoc]
      · intro file member notLoaded
        obtain ⟨notHere, notLater⟩ := not_or.mp (mem_cons.not.mp notLoaded)
        exact skipped file ((mem_cons.mp member).resolve_left notHere) notLater
    · obtain ⟨loaded, sublist, holdsLater, skipped⟩ := ih restPlaced sorted holds remaining
      refine ⟨loaded, sublist.cons path, holdsLater, ?_⟩
      intro file member notLoaded
      rcases mem_cons.mp member with rfl | inRest
      · refine ⟨base, based, notRoot, ?_⟩
        rw [holdsLater.rules, excluding_append_later located notRoot
          (fun file inLoaded => restPlaced file (sublist.subset inLoaded))
          (fun file inLoaded => first file (sublist.subset inLoaded)), ← holds.rules]
        exact excluded
      · exact skipped file inRest notLoaded

end Run

end AgentContextLint.IgnoreEngine
