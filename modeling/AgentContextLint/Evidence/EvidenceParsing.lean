import AgentContextLint.Evidence.EvidenceRuns

/-!
# What parsers declare

Every fact that a parser makes is inert text with a text for a name and a value, about the
directory of the document or the repository. The exception is the fact of a dependency: its name is
what the table of tool packages gives.
-/

namespace AgentContextLint.EvidenceIndex

open Utf16 PlainTable List
open ParsedJson (get parse)
open Value (isText_text)

/-- The facts that stand for dependencies. -/
def IsDependency (fact : DraftFact) : Prop :=
  fact.category = .tool ∧ fact.value = .text (js "dependency")

instance (fact : DraftFact) : Decidable (IsDependency fact) := inferInstanceAs (Decidable (_ ∧ _))

/-- What all facts of a document have. -/
structure Inert (document : TextDocument) (fact : DraftFact) : Prop where
  category : fact.category ≠ .path
  interpretation : fact.provenance.interpretation = .inertText
  scope : fact.scope = dirname document.path ∨ fact.scope = RepositoryPath.repositoryRoot

/-- A fact whose name and value are texts, and that stands for no dependency. -/
structure Regular (document : TextDocument) (fact : DraftFact) : Prop extends Inert document fact where
  name : fact.name.IsText
  value : fact.value.IsText
  other : ¬ IsDependency fact

def IsRegular (document : TextDocument) : Emission → Prop
  | .fact draft => Regular document draft
  | .issue _ => True

variable {document : TextDocument} {location : ConfigurationSourceLocation}

theorem regular_of_mem_factsOf {emissions : List Emission}
    (regular : ∀ emission ∈ emissions, IsRegular document emission) :
    ∀ fact ∈ factsOf emissions, Regular document fact := by
  intro fact member
  rcases mem_filterMap.mp member with ⟨emission, inEmissions, made⟩
  cases emission with
  | fact draft =>
    cases made
    exact regular _ inEmissions
  | issue issue => cases made

/-! ## Single facts -/

variable {category : EvidenceFactCategory} {rawValue value : Text}

theorem isRegular_declared {collectorId : String} {name : Value} (isText : name.IsText)
    (notPath : category ≠ .path) (other : category ≠ .tool ∨ value ≠ js "dependency") :
    IsRegular document (declared document category collectorId location name rawValue value) where
  category := notPath
  interpretation := rfl
  scope := .inl rfl
  name := isText
  value := isText_text value
  other := fun same => other.elim (fun tool => tool same.1) fun text =>
    text (Value.text.inj same.2)

variable {name : Text}

theorem isRegular_addTask {provider : Text} {offset : Nat} :
    IsRegular document (addTask document name provider offset rawValue) where
  category := fun same => by cases same
  interpretation := rfl
  scope := .inl rfl
  name := isText_text name
  value := isText_text provider
  other := fun same => by cases same.1

theorem isRegular_declaredByWorkflow :
    IsRegular document (declaredByWorkflow location name rawValue value) where
  category := fun same => by cases same
  interpretation := rfl
  scope := .inr rfl
  name := isText_text name
  value := isText_text value
  other := fun same => by cases same.1

theorem isRegular_issue {code : EvidenceIssueCode}
    {message : Text} : IsRegular document (issue code location message) := trivial

/-! ## Package manifests -/

variable {fields : Fields} {lines : List (Nat × Text)} {currentSection : Text} {kind : KeyValueKind}
  {offset : Nat} {dependency : Dependency}

theorem regular_selectedManager :
    ∀ emission ∈ selectedManager document fields, IsRegular document emission := by
  unfold selectedManager
  dsimp only
  split
  · exact forall_mem_nil _
  · split
    · exact forall_mem_singleton.mpr isRegular_issue
    · exact forall_mem_singleton.mpr
        (isRegular_declared (isText_text _) (by decide) (.inl (by decide)))
  · exact forall_mem_singleton.mpr isRegular_issue

variable {field : String}

theorem regular_textEntries {objectMessage entryLabel : String} {normalize : Text → Text}
    (notPath : category ≠ .path) (notTool : category ≠ .tool) :
    ∀ emission ∈ textEntries document fields field objectMessage entryLabel category normalize,
      IsRegular document emission := by
  unfold textEntries
  split
  · exact forall_mem_nil _
  · intro emission member
    rcases mem_map.mp member with ⟨⟨name, value⟩, _, rfl⟩
    dsimp only
    split
    · exact isRegular_declared (isText_text name) notPath (.inl notTool)
    · exact isRegular_issue
  · exact forall_mem_singleton.mpr isRegular_issue

theorem regular_devEngines :
    ∀ emission ∈ devEngines document fields, IsRegular document emission := by
  unfold devEngines
  split
  · exact forall_mem_nil _
  · intro emission member
    rcases mem_filterMap.mp member with ⟨runtimeValue, _, made⟩
    split at made
    · split at made
      · cases made
        exact isRegular_declared (isText_text _) (by decide) (.inl (by decide))
      · cases made
    · cases made
  · exact forall_mem_singleton.mpr isRegular_issue

theorem regular_volta : ∀ emission ∈ volta document fields, IsRegular document emission := by
  unfold volta
  split
  · split
    · exact forall_mem_singleton.mpr
        (isRegular_declared (isText_text _) (by decide) (.inl (by decide)))
    · exact forall_mem_nil _
  · exact forall_mem_nil _

theorem regular_embeddedTool {tool : String} :
    ∀ emission ∈ embeddedTool document fields field tool, IsRegular document emission := by
  unfold embeddedTool
  dsimp only
  split
  · exact forall_mem_nil _
  · exact forall_mem_singleton.mpr
      (isRegular_declared (isText_text _) (by decide) (.inr (by decide)))
  · exact forall_mem_singleton.mpr isRegular_issue

/-! ## Dependencies -/

/-- A dependency that a manifest declares with a version. -/
structure Dependency where
  document : TextDocument
  field : String
  name : Text
  version : Text

def Dependency.draft (dependency : Dependency) (tool : Value) : DraftFact where
  category := .tool
  certainty := .declared
  location := locateJsonKey dependency.document dependency.name
    (fieldOffset dependency.document dependency.field)
  name := tool
  provenance := inertText (js "f01.package-json")
  rawValue := dependency.name ++ [0x40] ++ dependency.version
  scope := dirname dependency.document.path
  value := .text (js "dependency")

def Dependency.fact? (dependency : Dependency) : Option DraftFact :=
  (lookup toolPackages dependency.name).map dependency.draft

def fieldDependencies (document : TextDocument) (fields : Fields) (field : String) :
    List Dependency :=
  match get fields (js field) with
  | some (.object entries) => (ParsedJson.sortedFields entries).filterMap fun entry =>
    match entry.2 with
    | .string version => some ⟨document, field, entry.1, version⟩
    | _ => none
  | _ => []

/-- The dependencies that a manifest declares. -/
def dependenciesOf (document : TextDocument) : List Dependency :=
  match parse document.text with
  | some (.object fields) => dependencyFields.flatMap (fieldDependencies document fields)
  | _ => []

theorem document_of_fieldDependencies {fields : Fields}
    (member : dependency ∈ fieldDependencies document fields field) :
    dependency.document = document := by
  unfold fieldDependencies at member
  split at member
  · rcases mem_filterMap.mp member with ⟨entry, _, made⟩
    split at made
    · cases made
      rfl
    · cases made
  · cases member

theorem document_of_dependenciesOf
    (member : dependency ∈ dependenciesOf document) : dependency.document = document := by
  unfold dependenciesOf at member
  split at member
  · rcases mem_flatMap.mp member with ⟨field, _, inField⟩
    exact document_of_fieldDependencies inField
  · cases member

theorem factsOf_append (first second : List Emission) :
    factsOf (first ++ second) = factsOf first ++ factsOf second := filterMap_append

theorem factsOf_flatMap {α : Type} (as : List α) (f : α → List Emission) :
    factsOf (as.flatMap f) = as.flatMap fun a => factsOf (f a) := by
  induction as with
  | nil => rfl
  | cons a as ih => rw [flatMap_cons, flatMap_cons, factsOf_append, ih]

theorem factsOf_dependencies (field : String) : factsOf (dependencies document fields field) =
      (fieldDependencies document fields field).filterMap (·.fact?) := by
  unfold dependencies fieldDependencies
  cases get fields (js field) with
  | none => rfl
  | some value =>
    cases value with
    | object entries =>
      dsimp only
      rw [factsOf_flatMap, filterMap_filterMap, filterMap_eq_flatMap_toList]
      apply flatMap_congr
      intro entry _
      unfold dependency
      cases version : entry.2 with
      | string version =>
        cases found : lookup toolPackages entry.1 with
        | none => simp [factsOf, Dependency.fact?, found]
        | some tool => simp [factsOf, Dependency.fact?, found, declared, Emission.fact?,
            Dependency.draft, inertText]
      | _ => cases lookup toolPackages entry.1 <;> rfl
    | _ => rfl

/-- The facts of a manifest: regular ones, and those of its dependencies. -/
theorem factsOf_parsePackageJson : ∃ regular, (∀ fact ∈ regular, Regular document fact) ∧
    factsOf (parsePackageJson document) =
      regular ++ (dependenciesOf document).filterMap (·.fact?) := by
  unfold parsePackageJson dependenciesOf
  have only : ∀ {code : EvidenceIssueCode} {location : ConfigurationSourceLocation}
      {message : Text}, ∃ regular, (∀ fact ∈ regular, Regular document fact) ∧
        factsOf [issue code location message] = regular ++ ([] : List Dependency).filterMap (·.fact?) :=
    ⟨[], forall_mem_nil _, rfl⟩
  cases parse document.text with
  | none => exact only
  | some value =>
    cases value with
    | object fields =>
      have regular : ∀ emission ∈ selectedManager document fields ++ scripts document fields ++
          engines document fields ++ devEngines document fields ++ volta document fields ++
          embeddedTool document fields "eslintConfig" "eslint" ++
          embeddedTool document fields "prettier" "prettier" ++
          embeddedTool document fields "stylelint" "stylelint", IsRegular document emission := by
        simp only [forall_mem_append]
        exact ⟨⟨⟨⟨⟨⟨⟨regular_selectedManager, regular_textEntries (by decide) (by decide)⟩,
          regular_textEntries (by decide) (by decide)⟩, regular_devEngines⟩, regular_volta⟩,
          regular_embeddedTool⟩, regular_embeddedTool⟩, regular_embeddedTool⟩
      refine ⟨_, regular_of_mem_factsOf regular, ?_⟩
      dsimp only
      rw [factsOf_append, factsOf_flatMap, filterMap_flatMap]
      apply congrArg
      apply flatMap_congr
      intro field _
      exact factsOf_dependencies field
    | _ => exact only

/-! ## Other files -/

theorem regular_parseMake : ∀ emission ∈ parseMake document, IsRegular document emission := by
  intro emission member
  rcases mem_append.mp member with inLines | dynamic
  · rcases mem_flatMap.mp inLines with ⟨⟨offset, line⟩, _, made⟩
    split at made
    next eq =>
      cases eq
      split_ifs at made
      · cases made
      · split at made
        · cases made
        · rcases mem_map.mp made with ⟨target, _, rfl⟩
          exact isRegular_addTask
  · split_ifs at dynamic
    · rw [mem_singleton.mp dynamic]
      exact isRegular_issue
    · cases dynamic

theorem regular_parseJust : ∀ emission ∈ parseJust document, IsRegular document emission := by
  intro emission member
  rcases mem_append.mp member with inLines | imports
  · rcases mem_filterMap.mp inLines with ⟨⟨offset, line⟩, _, made⟩
    dsimp only at made
    split_ifs at made
    rcases Option.map_eq_some_iff.mp made with ⟨recipe, _, rfl⟩
    exact isRegular_addTask
  · split_ifs at imports
    · rw [mem_singleton.mp imports]
      exact isRegular_issue
    · cases imports

theorem regular_assigned {location : ConfigurationSourceLocation} {key : Text} :
    ∀ emission ∈ assigned document kind currentSection offset location key value,
      IsRegular document emission := by
  have runtime : ∀ {condition : Prop} [Decidable condition] {collectorId name : String},
      ∀ emission ∈ (if condition then [declared document .runtime collectorId location
        (.text (js name)) value value] else []), IsRegular document emission := by
    intro condition _ collectorId name emission member
    split_ifs at member
    · rw [mem_singleton.mp member]
      exact isRegular_declared (isText_text _) (by decide) (.inl (by decide))
    · cases member
  have task : ∀ {condition : Prop} [Decidable condition] {provider : Text},
      ∀ emission ∈ (if condition then [addTask document key provider offset value] else []),
        IsRegular document emission := by
    intro condition _ provider emission member
    split_ifs at member
    · rw [mem_singleton.mp member]
      exact isRegular_addTask
    · cases member
  cases kind with
  | go => exact forall_mem_nil _
  | cargo => exact forall_mem_append.mpr ⟨runtime, task⟩
  | pyproject => exact forall_mem_append.mpr ⟨runtime, task⟩

theorem regular_keyValueLines {emittedTools : List Text} :
    ∀ emission ∈ keyValueLines document kind currentSection emittedTools lines,
      IsRegular document emission := by
  induction lines generalizing currentSection emittedTools with
  | nil => exact forall_mem_nil _
  | cons line rest ih =>
    intro emission member
    rw [keyValueLines.eq_def] at member
    dsimp only at member
    split at member
    · split_ifs at member
      · rcases mem_cons.mp member with rfl | later
        · exact isRegular_declared (isText_text _) (by decide) (.inr (by decide))
        · exact ih _ later
      · exact ih _ member
    · rcases mem_append.mp member with here | later
      · split at here
        · split at here
          · cases here
          · rw [mem_singleton.mp here]
            exact isRegular_declared (isText_text _) (by decide) (.inl (by decide))
        · split at here
          · cases here
          · exact regular_assigned _ here
      · exact ih _ later

/-- The names of runtime files are no inherited keys. -/
theorem regular_parseRuntimeFile (isRuntime : basename document.path ∈ runtimeBasenames) :
    ∀ emission ∈ parseRuntimeFile document, IsRegular document emission := by
  have plain : basename document.path ∉ inheritedKeys := by
    have all : ∀ name ∈ runtimeBasenames, name ∉ inheritedKeys := by decide +kernel
    exact all _ isRuntime
  intro emission member
  unfold parseRuntimeFile at member
  rcases mem_append.mp member with member | channel
  · rcases mem_append.mp member with first | versions
    · split at first
      · next runtime text found _ =>
          rw [mem_singleton.mp first]
          exact isRegular_declared (isText_of_lookup (.inl plain) found) (by decide)
            (.inl (by decide))
      · cases first
    · split_ifs at versions
      · rcases mem_filterMap.mp versions with ⟨line, _, made⟩
        rcases Option.map_eq_some_iff.mp made with ⟨version, _, rfl⟩
        exact isRegular_declared (isText_text _) (by decide) (.inl (by decide))
      · cases versions
  · split_ifs at channel
    · split at channel
      · cases channel
      · rw [mem_singleton.mp channel]
        exact isRegular_declared (isText_text _) (by decide) (.inl (by decide))
    · cases channel

theorem regular_ciStep {line : Text} :
    ∀ emission ∈ ciStep document offset line, IsRegular document emission := by
  unfold ciStep
  split
  · exact forall_mem_nil _
  · dsimp only
    split_ifs
    · exact forall_mem_singleton.mpr isRegular_issue
    · exact forall_mem_singleton.mpr isRegular_declaredByWorkflow

theorem regular_ciLines {inJobs : Bool} :
    ∀ emission ∈ ciLines document inJobs lines, IsRegular document emission := by
  induction lines generalizing inJobs with
  | nil => exact forall_mem_nil _
  | cons line rest ih =>
    intro emission member
    rw [ciLines] at member
    split_ifs at member
    · exact ih _ member
    · rcases mem_append.mp member with here | later
      · rcases mem_append.mp here with job | step
        · split_ifs at job
          · rcases mem_map.mp job with ⟨name, _, rfl⟩
            exact isRegular_declaredByWorkflow
          · cases job
        · exact regular_ciStep _ step
      · exact ih _ later

theorem regular_parseTaskJson : ∀ emission ∈ parseTaskJson document, IsRegular document emission := by
  unfold parseTaskJson
  split
  · exact forall_mem_singleton.mpr isRegular_issue
  · split
    · exact forall_mem_nil _
    · intro emission member
      rcases mem_map.mp member with ⟨entry, _, rfl⟩
      exact isRegular_addTask
  · exact forall_mem_nil _

/-! ## All files -/

/-- What a parsed file declares as dependencies. -/
def dependenciesOfFile : TextDocument × ReadKind → List Dependency
  | (document, .packageJson) => dependenciesOf document
  | _ => []

theorem factsOf_parseDocument {kind : ReadKind}
    (isRuntime : kind = .runtime → basename document.path ∈ runtimeBasenames) :
    ∃ regular, (∀ fact ∈ regular, Regular document fact) ∧ factsOf (parseDocument document kind) =
        regular ++ (dependenciesOfFile (document, kind)).filterMap (·.fact?) := by
  have only : ∀ {emissions : List Emission}, (∀ emission ∈ emissions, IsRegular document emission) →
      ∃ regular, (∀ fact ∈ regular, Regular document fact) ∧
        factsOf emissions = regular ++ ([] : List Dependency).filterMap (·.fact?) := by
    intro emissions each
    exact ⟨factsOf emissions, regular_of_mem_factsOf each, (append_nil _).symm⟩
  cases kind with
  | packageJson => exact factsOf_parsePackageJson
  | make => exact only regular_parseMake
  | just => exact only regular_parseJust
  | cargo => exact only regular_keyValueLines
  | go => exact only regular_keyValueLines
  | pyproject => exact only regular_keyValueLines
  | runtime => exact only (regular_parseRuntimeFile (isRuntime rfl))
  | ci => exact only regular_ciLines
  | taskJson => exact only regular_parseTaskJson

end AgentContextLint.EvidenceIndex
