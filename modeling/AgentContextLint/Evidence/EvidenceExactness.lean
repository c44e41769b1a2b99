import AgentContextLint.Evidence.EvidenceConflicts
import AgentContextLint.Evidence.EvidenceParsing

/-!
# When evidence is exact

The catalogs of the collection are read at names that the repository chooses. At a name that every
object inherits they give an object of the realm, which becomes the name or the value of a fact and
is frozen with it. Without such names, and only then, the evidence is exact (`exact_iff_plain`).
-/

namespace AgentContextLint.EvidenceIndex

open Utf16 PlainTable StatefulRuns List
open Value (isText_text text)
open Option (isSome_iff_exists map_eq_some_iff)

/-! ## Exact evidence -/

/-- A fact about a path that its name alone shows. -/
def HasFact (index : RepositoryEvidenceIndex) (category : EvidenceFactCategory)
    (collectorId : String) (path : RelativePath) : Prop :=
  ∃ fact ∈ index.facts, fact.category = category ∧ fact.provenance = pathOnly collectorId ∧
    fact.location.path = path

/-- The dependencies that the manifests declare. -/
def declaredDependencies (input : Input) : List Dependency :=
  input.paths.flatMap fun path => (parsedFile input path).toList.flatMap dependenciesOfFile

def Dependency.ownFact? (dependency : Dependency) : Option DraftFact :=
  if dependency.name ∈ toolPackages.keys then dependency.fact? else none

structure Exact (input : Input) (index : RepositoryEvidenceIndex) (frozen : List Text) :
    Prop where
  texts : ∀ fact ∈ index.facts, fact.name.IsText ∧ fact.value.IsText
  paths : ((index.facts.filter fun fact => fact.category = .path).map (·.toDraftFact)).Perm
    (input.paths.map pathFact)
  lockfiles : ∀ path ∈ input.paths,
    (HasFact index .lockfile "f01.lockfile-catalog" path ↔ basename path ∈ lockfiles.keys) ∧
    (HasFact index .packageManager "f01.lockfile-catalog" path ↔ basename path ∈ lockfiles.keys)
  tools : ∀ path ∈ input.paths,
    (HasFact index .tool "f01.tool-config-catalog" path ↔ basename path ∈ toolBasenames.keys)
  dependencies : ((index.facts.map (·.toDraftFact)).filter fun fact => IsDependency fact).Perm
    ((declaredDependencies input).filterMap (·.ownFact?))
  realm : frozen = []
  conflicts : ConflictsExact index.facts index.conflicts

/-- No file and no dependency has a name that every object inherits. -/
def Plain (input : Input) : Prop :=
  (∀ path ∈ input.paths, basename path ∉ inheritedKeys) ∧
    ∀ dependency ∈ declaredDependencies input, dependency.name ∉ inheritedKeys

instance (input : Input) : Decidable (Plain input) := inferInstanceAs (Decidable (_ ∧ _))

/-! ## Publication -/

section

variable (facts : List DraftFact)

include facts

theorem drafts_publish :
    (publish facts).map (·.toDraftFact) = Sorting.sortBy compareFacts facts := by
  apply ext_getElem
  · rw [length_map, publish, length_mapIdx]
  · intro index small other
    simp only [publish, getElem_map, getElem_mapIdx]

theorem drafts_perm : ((publish facts).map (·.toDraftFact)).Perm facts := by
  rw [drafts_publish]
  exact Sorting.sortBy_perm _ facts

theorem exists_published (condition : DraftFact → Prop) :
    (∃ fact ∈ publish facts, condition fact.toDraftFact) ↔ ∃ draft ∈ facts, condition draft := by
  constructor
  · intro ⟨fact, member, holds⟩
    exact ⟨_, (drafts_perm facts).mem_iff.mp (mem_map_of_mem member), holds⟩
  · intro ⟨draft, member, holds⟩
    rcases mem_map.mp ((drafts_perm facts).mem_iff.mpr member) with ⟨fact, published, rfl⟩
    exact ⟨fact, published, holds⟩

theorem filter_drafts (condition : DraftFact → Prop) [DecidablePred condition] :
    (((publish facts).filter fun fact => condition fact.toDraftFact).map (·.toDraftFact)).Perm
      (facts.filter fun draft => condition draft) := by
  have mapped : ((publish facts).filter fun fact => condition fact.toDraftFact).map (·.toDraftFact) =
      ((publish facts).map (·.toDraftFact)).filter fun draft => condition draft := by
    rw [filter_map]
    rfl
  rw [mapped]
  exact (drafts_perm facts).filter _

end

/-! ## The parts of the facts -/

variable {input : Input} {path : RelativePath} {document : TextDocument}

theorem isRuntime_of_readKind {complete : List Text}
    (runtime : readKind path complete = some .runtime) : basename path ∈ runtimeBasenames := by
  unfold readKind at runtime
  dsimp only at runtime
  split_ifs at runtime with _ _ _ _ _ _ isRuntime
  · cases runtime
  · cases runtime
  · cases runtime
  · cases runtime
  · cases runtime
  · cases runtime
  · exact isRuntime
  · cases runtime
  · cases runtime

theorem documentOf_path (read : documentOf input path = some document) : document.path = path := by
  unfold documentOf at read
  split at read
  · rcases map_eq_some_iff.mp read with ⟨text, _, rfl⟩
    rfl
  · cases read

theorem parsedFile_eq_some
    {kind : ReadKind} (parsed : parsedFile input path = some (document, kind)) :
    document.path = path ∧ (kind = .runtime → basename document.path ∈ runtimeBasenames) := by
  unfold parsedFile at parsed
  split at parsed
  · next found read =>
      cases parsed
      have same := documentOf_path read
      refine ⟨same, fun runtime => ?_⟩
      rw [same]
      rw [runtime] at found
      exact isRuntime_of_readKind found
  · cases parsed

variable (input) in
/-- The facts of a file: regular ones, and those of its dependencies. -/
theorem fileFacts_eq (path : RelativePath) : ∃ regular,
    (∀ fact ∈ regular, ∃ document : TextDocument, document.path = path ∧ Regular document fact) ∧
    fileFacts input path =
      regular ++ ((parsedFile input path).toList.flatMap dependenciesOfFile).filterMap (·.fact?) := by
  unfold fileFacts
  cases parsed : parsedFile input path with
  | none => exact ⟨[], forall_mem_nil _, rfl⟩
  | some file =>
    rcases file with ⟨document, kind⟩
    have facts := parsedFile_eq_some parsed
    rcases factsOf_parseDocument facts.2 with ⟨regular, each, same⟩
    refine ⟨regular, fun fact member => ⟨document, facts.1, each fact member⟩, ?_⟩
    rw [Option.toList_some, flatMap_singleton]
    exact same

variable {path : RelativePath} {fact : DraftFact} {dependency : Dependency}
  {category : EvidenceFactCategory} {condition : DraftFact → Prop} {record : WorkspaceRecord}

/-- What is common to all facts that files declare. -/
theorem inert_of_fileFacts (member : fact ∈ fileFacts input path) :
    ∃ document : TextDocument, document.path = path ∧ Inert document fact := by
  unfold fileFacts at member
  split at member
  · cases member
  · next document kind parsed =>
      have facts := parsedFile_eq_some parsed
      rcases factsOf_parseDocument facts.2 with ⟨regular, each, same⟩
      rw [same] at member
      refine ⟨document, facts.1, ?_⟩
      rcases mem_append.mp member with inRegular | dependency
      · exact (each fact inRegular).toInert
      · rcases mem_filterMap.mp dependency with ⟨declared, inDependencies, made⟩
        rcases map_eq_some_iff.mp made with ⟨tool, _, rfl⟩
        have own : declared.document = document := by
          cases kind with
          | packageJson => exact document_of_dependenciesOf inDependencies
          | _ => cases inDependencies
        exact ⟨fun same => (by cases same), rfl, .inl (congrArg (fun written : TextDocument => dirname written.path) own)⟩

theorem mem_pathFacts : fact ∈ pathFacts path ↔ fact = pathFact path ∨
      (∃ lockManager, lookup lockfiles (basename path) = some lockManager ∧
        (fact = lockfileFact path lockManager ∨ fact = lockManagerFact path lockManager)) ∨
      (∃ tool, lookup toolBasenames (basename path) = some tool ∧
        fact = toolConfigurationFact path tool) ∨
      ∃ provider, ciProvider path = some provider ∧ fact = ciPathFact path provider := by
  unfold pathFacts
  cases lookup lockfiles (basename path) <;> cases lookup toolBasenames (basename path) <;>
    cases ciProvider path <;> simp [or_assoc]

theorem mem_allFacts :
    fact ∈ allFacts input ↔ fact ∈ configurationFacts input.configuredPackageManager ∨
      (∃ path ∈ input.paths, fact ∈ pathFacts path) ∨
      (∃ record ∈ input.workspace.evidence, fact ∈ recordFacts record) ∨
      ∃ path ∈ input.paths, fact ∈ fileFacts input path := by
  simp [allFacts]

/-- What is common to the facts about a path. -/
theorem location_of_pathFacts (member : fact ∈ pathFacts path) : fact.location.path = path ∧
      (fact.scope = dirname path ∨ fact.scope = RepositoryPath.repositoryRoot) := by
  rcases mem_pathFacts.mp member with rfl | ⟨_, _, rfl | rfl⟩ | ⟨_, _, rfl⟩ | ⟨_, _, rfl⟩
  · exact ⟨rfl, .inl rfl⟩
  · exact ⟨rfl, .inl rfl⟩
  · exact ⟨rfl, .inl rfl⟩
  · exact ⟨rfl, .inl rfl⟩
  · exact ⟨rfl, .inr rfl⟩

/-- What is common to the facts that the configuration and the records stand for. -/
structure Declared (fact : DraftFact) : Prop where
  category : fact.category ≠ .path
  interpretation : fact.provenance.interpretation ≠ .pathOnly
  name : fact.name.IsText
  value : fact.value.IsText
  other : ¬ IsDependency fact

theorem declared_of_configurationFacts {selected : PackageManagerOption}
    (member : fact ∈ configurationFacts selected) :
    Declared fact ∧ fact.scope = RepositoryPath.repositoryRoot := by
  cases selected with
  | auto => cases member
  | selected name =>
    have same := mem_singleton.mp member
    rw [same]
    exact ⟨⟨fun path => (by cases path), fun pathOnly => (by cases pathOnly),
      isText_text _, isText_text name, fun tool => (by cases tool.1)⟩, rfl⟩

theorem declared_recorded {name rawValue value : Text} (notPath : category ≠ .path)
    (notTool : category ≠ .tool) : Declared (recorded record category name rawValue value) :=
  ⟨notPath, fun pathOnly => (by cases pathOnly), isText_text name, isText_text value,
    fun tool => notTool tool.1⟩

theorem declared_of_recordFacts
    (member : fact ∈ recordFacts record) : Declared fact ∧ fact.scope = record.root := by
  unfold recordFacts at member
  rcases mem_cons.mp member with rfl | member
  · exact ⟨declared_recorded (by decide) (by decide), rfl⟩
  · split at member
    · cases member
    · split_ifs at member
      · cases member
      · rw [mem_singleton.mp member]
        exact ⟨declared_recorded (by decide) (by decide), rfl⟩

/-! ## Texts -/

theorem mem_declaredDependencies : dependency ∈ declaredDependencies input ↔ ∃ path ∈ input.paths,
      dependency ∈ (parsedFile input path).toList.flatMap dependenciesOfFile := mem_flatMap

theorem texts_of_plain (plain : Plain input) (member : fact ∈ allFacts input) :
    fact.name.IsText ∧ fact.value.IsText := by
  rcases mem_allFacts.mp member with configured | ⟨path, inPaths, found⟩ | ⟨record, _, made⟩ |
    ⟨path, inPaths, found⟩
  · have facts := (declared_of_configurationFacts configured).1
    exact ⟨facts.name, facts.value⟩
  · have own := plain.1 path inPaths
    rcases mem_pathFacts.mp found with rfl | ⟨_, read, rfl | rfl⟩ | ⟨_, read, rfl⟩ | ⟨_, _, rfl⟩
    · exact ⟨isText_text _, isText_text _⟩
    · exact ⟨isText_of_lookup (.inl own) read, isText_text _⟩
    · exact ⟨isText_text _, isText_of_lookup (.inl own) read⟩
    · exact ⟨isText_of_lookup (.inl own) read, isText_text _⟩
    · exact ⟨isText_text _, isText_text _⟩
  · have facts := (declared_of_recordFacts made).1
    exact ⟨facts.name, facts.value⟩
  · rcases fileFacts_eq input path with ⟨regular, each, same⟩
    rw [same] at found
    rcases mem_append.mp found with inRegular | dependency
    · rcases each fact inRegular with ⟨_, _, facts⟩
      exact ⟨facts.name, facts.value⟩
    · rcases mem_filterMap.mp dependency with ⟨declared, inDependencies, made⟩
      rcases map_eq_some_iff.mp made with ⟨tool, read, rfl⟩
      have own := plain.2 declared (mem_declaredDependencies.mpr ⟨path, inPaths, inDependencies⟩)
      exact ⟨isText_of_lookup (.inl own) read, isText_text _⟩

theorem keys_plain : (∀ key ∈ lockfiles.keys, key ∉ inheritedKeys) ∧
    ∀ key ∈ toolPackages.keys, key ∉ inheritedKeys := by decide +kernel

theorem lookup_inherited {table : Table} {key : Text}
    (foreign : ∀ key ∈ table.keys, key ∉ inheritedKeys) (inherited : key ∈ inheritedKeys) :
    lookup table key = some (.inherited key) := by
  rw [lookup_of_notMem fun own => foreign key own inherited, if_pos inherited]

theorem plain_of_texts (texts : ∀ fact ∈ allFacts input, fact.name.IsText) : Plain input := by
  constructor
  · intro path inPaths inherited
    have read := lookup_inherited keys_plain.1 inherited
    have found : lockfileFact path (.inherited (basename path)) ∈ pathFacts path :=
      mem_pathFacts.mpr (.inr (.inl ⟨_, read, .inl rfl⟩))
    rcases texts _ (mem_allFacts.mpr (.inr (.inl ⟨path, inPaths, found⟩))) with ⟨_, written⟩
    cases written
  · intro dependency member inherited
    rcases mem_declaredDependencies.mp member with ⟨path, inPaths, inDependencies⟩
    have made : dependency.fact? = some (dependency.draft (.inherited dependency.name)) := by
      rw [Dependency.fact?, lookup_inherited keys_plain.2 inherited, Option.map_some]
    rcases fileFacts_eq input path with ⟨regular, _, same⟩
    have found : dependency.draft (.inherited dependency.name) ∈ fileFacts input path := by
      rw [same]
      exact mem_append_right _ (mem_filterMap.mpr ⟨dependency, inDependencies, made⟩)
    rcases texts _ (mem_allFacts.mpr (.inr (.inr (.inr ⟨path, inPaths, found⟩)))) with
      ⟨_, written⟩
    cases written

theorem frozen_eq_nil (plain : Plain input) : (allFacts input).flatMap frozenBy = [] := by
  apply flatMap_eq_nil_iff.mpr
  intro fact member
  have texts := texts_of_plain plain member
  rw [frozenBy, Value.frozen_eq_nil_iff.mpr texts.1, Value.frozen_eq_nil_iff.mpr texts.2]
  rfl

/-! ## Facts about paths -/

theorem interpretation_of_fileFacts (member : fact ∈ fileFacts input path) :
    fact.category ≠ .path ∧ fact.provenance.interpretation ≠ .pathOnly := by
  rcases inert_of_fileFacts member with ⟨_, _, inert⟩
  refine ⟨inert.category, fun pathOnly => ?_⟩
  rw [inert.interpretation] at pathOnly
  cases pathOnly

/-- A fact that a path alone shows is one of the facts about this path. -/
theorem hasFact_iff {index : RepositoryEvidenceIndex} (facts : index.facts = publish (allFacts input)) {collectorId : String}
    (inPaths : path ∈ input.paths) :
    HasFact index category collectorId path ↔
      ∃ fact ∈ pathFacts path, fact.category = category ∧ fact.provenance = pathOnly collectorId := by
  rw [HasFact, facts]
  refine Iff.trans (exists_published (allFacts input) fun draft =>
    draft.category = category ∧ draft.provenance = pathOnly collectorId ∧
      draft.location.path = path) ?_
  constructor
  · intro ⟨fact, member, same, provenance, located⟩
    rcases mem_allFacts.mp member with configured | ⟨other, _, found⟩ | ⟨record, _, made⟩ |
      ⟨other, _, found⟩
    · exact absurd (congrArg (·.interpretation) provenance)
        (declared_of_configurationFacts configured).1.interpretation
    · rw [(location_of_pathFacts found).1] at located
      rw [located] at found
      exact ⟨fact, found, same, provenance⟩
    · exact absurd (congrArg (·.interpretation) provenance)
        (declared_of_recordFacts made).1.interpretation
    · exact absurd (congrArg (·.interpretation) provenance) (interpretation_of_fileFacts found).2
  · intro ⟨fact, found, same, provenance⟩
    exact ⟨fact, mem_allFacts.mpr (.inr (.inl ⟨path, inPaths, found⟩)), same, provenance,
      (location_of_pathFacts found).1⟩

theorem isSome_of_lockfile {category : EvidenceFactCategory}
    (told : category = .lockfile ∨ category = .packageManager) :
    (∃ fact ∈ pathFacts path, fact.category = category ∧
        fact.provenance = pathOnly "f01.lockfile-catalog") ↔
      (lookup lockfiles (basename path)).isSome = true := by
  constructor
  · intro ⟨fact, member, same, _⟩
    rcases mem_pathFacts.mp member with rfl | ⟨_, read, _⟩ | ⟨_, _, rfl⟩ | ⟨_, _, rfl⟩
    · rcases told with rfl | rfl <;> cases same
    · exact isSome_iff_exists.mpr ⟨_, read⟩
    · rcases told with rfl | rfl <;> cases same
    · rcases told with rfl | rfl <;> cases same
  · intro isSome
    rcases isSome_iff_exists.mp isSome with ⟨lockManager, read⟩
    rcases told with rfl | rfl
    · exact ⟨lockfileFact path lockManager,
        mem_pathFacts.mpr (.inr (.inl ⟨lockManager, read, .inl rfl⟩)), rfl, rfl⟩
    · exact ⟨lockManagerFact path lockManager,
        mem_pathFacts.mpr (.inr (.inl ⟨lockManager, read, .inr rfl⟩)), rfl, rfl⟩

theorem isSome_of_tool : (∃ fact ∈ pathFacts path, fact.category = .tool ∧
        fact.provenance = pathOnly "f01.tool-config-catalog") ↔
      (lookup toolBasenames (basename path)).isSome = true := by
  constructor
  · intro ⟨fact, member, same, _⟩
    rcases mem_pathFacts.mp member with rfl | ⟨_, _, rfl | rfl⟩ | ⟨_, read, _⟩ | ⟨_, _, rfl⟩
    · cases same
    · cases same
    · cases same
    · exact isSome_iff_exists.mpr ⟨_, read⟩
    · cases same
  · intro isSome
    rcases isSome_iff_exists.mp isSome with ⟨tool, read⟩
    exact ⟨toolConfigurationFact path tool,
      mem_pathFacts.mpr (.inr (.inr (.inl ⟨tool, read, rfl⟩))), rfl, rfl⟩

/-! ## Facts of a kind -/

theorem filter_eq_nil [DecidablePred condition] {facts : List DraftFact}
    (other : ∀ fact ∈ facts, ¬ condition fact) : (facts.filter fun fact => condition fact) = [] :=
  filter_eq_nil_iff.mpr fun fact member same => other fact member (of_decide_eq_true same)

theorem flatMap_filter_eq_nil {α : Type} [DecidablePred condition]
    (as : List α) {facts : α → List DraftFact} (other : ∀ a, ∀ fact ∈ facts a, ¬ condition fact) :
    ((as.flatMap facts).filter fun fact => condition fact) = [] := by
  apply filter_eq_nil
  intro fact member
  rcases mem_flatMap.mp member with ⟨a, _, made⟩
  exact other a fact made

theorem filter_path : ((allFacts input).filter fun fact => fact.category = .path) =
    input.paths.map pathFact := by
  have own : ∀ path, ((pathFacts path).filter fun fact => fact.category = .path) = [pathFact path] := by
    intro path
    unfold pathFacts
    cases lookup lockfiles (basename path) <;> cases lookup toolBasenames (basename path) <;>
      cases ciProvider path <;> rfl
  have configured := filter_eq_nil
    fun fact (member : fact ∈ configurationFacts input.configuredPackageManager) =>
      (declared_of_configurationFacts member).1.category
  have records := flatMap_filter_eq_nil input.workspace.evidence
    fun record fact (made : fact ∈ recordFacts record) => (declared_of_recordFacts made).1.category
  have files := flatMap_filter_eq_nil input.paths
    fun path fact (found : fact ∈ fileFacts input path) => (interpretation_of_fileFacts found).1
  rw [allFacts, filter_append, filter_append, filter_append, configured, records,
    files, nil_append, append_nil, append_nil, filter_flatMap,
    ← flatMap_pure_eq_map]
  exact flatMap_congr fun path _ => own path

theorem isDependency_of_fact? (made : dependency.fact? = some fact) : IsDependency fact := by
  rcases map_eq_some_iff.mp made with ⟨tool, _, rfl⟩
  exact ⟨rfl, rfl⟩

theorem other_of_pathFacts (member : fact ∈ pathFacts path) : ¬ IsDependency fact := by
  rcases mem_pathFacts.mp member with rfl | ⟨_, _, rfl | rfl⟩ | ⟨_, _, rfl⟩ | ⟨_, _, rfl⟩
  · exact fun same => by cases same.1
  · exact fun same => by cases same.1
  · exact fun same => by cases same.1
  · exact fun same => absurd (text.inj same.2) (by decide)
  · exact fun same => by cases same.1

theorem filter_fileFacts (path : RelativePath) :
    ((fileFacts input path).filter fun fact => IsDependency fact) =
      ((parsedFile input path).toList.flatMap dependenciesOfFile).filterMap (·.fact?) := by
  rcases fileFacts_eq input path with ⟨regular, each, same⟩
  have others : (regular.filter fun fact => IsDependency fact) = [] := by
    apply filter_eq_nil
    intro fact member
    rcases each fact member with ⟨_, _, facts⟩
    exact facts.other
  rw [same, filter_append, others, nil_append]
  apply filter_eq_self.mpr
  intro fact member
  rcases mem_filterMap.mp member with ⟨dependency, _, made⟩
  exact decide_eq_true (isDependency_of_fact? made)

theorem filter_dependencies : ((allFacts input).filter fun fact => IsDependency fact) =
    (declaredDependencies input).filterMap (·.fact?) := by
  have configured := filter_eq_nil
    fun fact (member : fact ∈ configurationFacts input.configuredPackageManager) =>
      (declared_of_configurationFacts member).1.other
  have inPaths := flatMap_filter_eq_nil input.paths
    fun path fact (found : fact ∈ pathFacts path) => other_of_pathFacts found
  have records := flatMap_filter_eq_nil input.workspace.evidence
    fun record fact (made : fact ∈ recordFacts record) => (declared_of_recordFacts made).1.other
  rw [allFacts, filter_append, filter_append, filter_append, configured, inPaths,
    records, nil_append, nil_append, nil_append, filter_flatMap,
    declaredDependencies, filterMap_flatMap]
  exact flatMap_congr fun path _ => filter_fileFacts path

/-- At a name that is not inherited, exactly an own key gives a fact. -/
theorem fact?_eq_ownFact? (plain : dependency.name ∉ inheritedKeys) :
    dependency.fact? = dependency.ownFact? := by
  unfold Dependency.ownFact?
  split_ifs with own
  · rfl
  · rw [Dependency.fact?, lookup_of_notMem own, if_neg plain]
    rfl

/-! ## Scopes -/

theorem nul_notMem_of_isCanonical {path : Text} (canonical : isCanonical path) :
    (0 : UInt16) ∉ path := fun member =>
  absurd ((RepositoryPath.canonicalize_eq_ok.mp canonical).1.plain 0 member) (by decide)

theorem nul_notMem_root : (0 : UInt16) ∉ RepositoryPath.repositoryRoot := by decide

theorem nul_notMem_dirname (plain : (0 : UInt16) ∉ path) : (0 : UInt16) ∉ dirname path := by
  unfold dirname
  split
  · exact nul_notMem_root
  · next slash front eq =>
      intro member
      have inPath : (0 : UInt16) ∈ path.reverse := by
        apply (dropWhile_sublist (· ≠ 0x2f)).subset
        rw [eq]
        exact mem_cons_of_mem _ (mem_reverse.mp member)
      exact plain (mem_reverse.mp inPath)

theorem canonical_root_of_snapshotWorkspace (ran : Yields (snapshotWorkspace input) ()) :
    ∀ record ∈ input.workspace.evidence, isCanonical record.root := by
  rcases yields_stopIf_bind ran with ⟨_, ran⟩
  rcases yields_stopIf_bind ran with ⟨_, ran⟩
  rcases yields_bind ran with ⟨_, records, _⟩
  intro record member
  rcases yields_stopIf_bind (yields_forM records record member) with ⟨_, ran⟩
  rcases yields_stopIf_bind ran with ⟨_, ran⟩
  rcases yields_stopIf_bind ran with ⟨_, ran⟩
  rcases yields_stopIf_bind ran with ⟨consistent, _⟩
  exact of_not_not fun other => consistent (.inr other)

theorem nul_notMem_scope (checked : InventoryChecked input)
    (ran : Yields (snapshotWorkspace input) ())
    (member : fact ∈ allFacts input) : (0 : UInt16) ∉ fact.scope := by
  have plain : ∀ path ∈ input.paths, (0 : UInt16) ∉ path := fun path inPaths =>
    nul_notMem_of_isCanonical (checked.paths path inPaths).canonical
  rcases mem_allFacts.mp member with configured | ⟨path, inPaths, found⟩ | ⟨record, inRecords, made⟩ |
    ⟨path, inPaths, found⟩
  · rw [(declared_of_configurationFacts configured).2]
    exact nul_notMem_root
  · rcases (location_of_pathFacts found).2 with scope | scope
    · rw [scope]
      exact nul_notMem_dirname (plain path inPaths)
    · rw [scope]
      exact nul_notMem_root
  · rw [(declared_of_recordFacts made).2]
    exact nul_notMem_of_isCanonical (canonical_root_of_snapshotWorkspace ran record inRecords)
  · rcases inert_of_fileFacts found with ⟨document, located, inert⟩
    rcases inert.scope with scope | scope
    · rw [scope, located]
      exact nul_notMem_dirname (plain path inPaths)
    · rw [scope]
      exact nul_notMem_root

/-! ## Exactness -/

variable {index : RepositoryEvidenceIndex} {frozen : List Text}

theorem exact_of_plain (accepted : collectRepositoryEvidence input = .ok (index, frozen))
    (plain : Plain input) : Exact input index frozen := by
  rcases collectRepositoryEvidence_eq_ok input accepted with ⟨facts, conflicts, realm, checked, ran⟩
  have drafts : ∀ fact ∈ index.facts, fact.toDraftFact ∈ allFacts input := by
    intro fact member
    rw [facts] at member
    exact (drafts_perm _).mem_iff.mp (mem_map_of_mem member)
  have texts : ∀ fact ∈ index.facts, fact.name.IsText ∧ fact.value.IsText := fun fact member =>
    texts_of_plain plain (drafts fact member)
  refine ⟨texts, ?_, ?_, ?_, ?_, ?_, ?_⟩
  · rw [facts, ← filter_path]
    exact filter_drafts (allFacts input) fun draft => draft.category = .path
  · intro path inPaths
    have own : (lookup lockfiles (basename path)).isSome = true ↔ basename path ∈ lockfiles.keys :=
      lookup_isSome_iff (plain.1 path inPaths)
    exact ⟨(hasFact_iff facts inPaths).trans ((isSome_of_lockfile (.inl rfl)).trans own),
      (hasFact_iff facts inPaths).trans ((isSome_of_lockfile (.inr rfl)).trans own)⟩
  · intro path inPaths
    exact (hasFact_iff facts inPaths).trans
      (isSome_of_tool.trans (lookup_isSome_iff (plain.1 path inPaths)))
  · have own : (declaredDependencies input).filterMap (·.fact?) =
        (declaredDependencies input).filterMap (·.ownFact?) :=
      filterMap_congr fun dependency member => fact?_eq_ownFact? (plain.2 dependency member)
    rw [facts, ← own, ← filter_dependencies]
    exact (drafts_perm _).filter _
  · rw [realm]
    exact frozen_eq_nil plain
  · rw [conflicts]
    exact conflictsExact fun fact member =>
      ⟨(texts fact member).1, nul_notMem_scope checked ran (drafts fact member)⟩

theorem plain_of_exact (accepted : collectRepositoryEvidence input = .ok (index, frozen))
    (exact : Exact input index frozen) : Plain input := by
  rcases collectRepositoryEvidence_eq_ok input accepted with ⟨facts, _⟩
  apply plain_of_texts
  intro fact member
  rcases (exists_published (allFacts input) (· = fact)).mpr ⟨fact, member, rfl⟩ with
    ⟨published, inFacts, same⟩
  rw [← facts] at inFacts
  rw [← same]
  exact (exact.texts published inFacts).1

/-- Accepted evidence is exact if and only if no name is inherited. -/
theorem exact_iff_plain (accepted : collectRepositoryEvidence input = .ok (index, frozen)) :
    Exact input index frozen ↔ Plain input :=
  ⟨plain_of_exact accepted, exact_of_plain accepted⟩

/-- A repository of one empty file. -/
def oneFile (path : String) : Input where
  readFile := fun _ => .bytes []
  workspace := ⟨js "0.1.0", [], []⟩
  paths := [js path]
  limits := evidenceIndexDefaultLimits
  configuredPackageManager := .auto
  interrupts := fun _ => none

theorem accepted_oneFile (path : String)
    (isSome : (collectRepositoryEvidence (oneFile path)).toOption.isSome = true) :
    ∃ index frozen, collectRepositoryEvidence (oneFile path) = .ok (index, frozen) := by
  cases ran : collectRepositoryEvidence (oneFile path) with
  | error error =>
    rw [ran] at isSome
    cases isSome
  | ok result => exact ⟨result.1, result.2, rfl⟩

/-- A repository with one lockfile. -/
theorem exact_iff_plain_lockfile : ∃ index frozen,
    collectRepositoryEvidence (oneFile "yarn.lock") = .ok (index, frozen) ∧
      Exact (oneFile "yarn.lock") index frozen := by
  rcases accepted_oneFile "yarn.lock" (by decide +kernel) with ⟨index, frozen, accepted⟩
  exact ⟨index, frozen, accepted, (exact_iff_plain accepted).mpr (by decide +kernel)⟩

/-- A file with the name of an inherited property has facts, though no catalog lists it. -/
theorem not_exact_constructor : ∃ index frozen,
    collectRepositoryEvidence (oneFile "constructor") = .ok (index, frozen) ∧
      ¬ Exact (oneFile "constructor") index frozen := by
  rcases accepted_oneFile "constructor" (by decide +kernel) with ⟨index, frozen, accepted⟩
  refine ⟨index, frozen, accepted, fun exact => ?_⟩
  have plain := (plain_of_exact accepted exact).1 (js "constructor") mem_cons_self
  exact plain (by decide +kernel)

end AgentContextLint.EvidenceIndex
