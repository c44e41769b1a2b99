import AgentContextLint.Evidence.EvidenceIndex

/-!
# What a collection adds

Every program of the collection adds a list of facts that its input determines, and freezes what
these facts hold (`Adds`). A collection that is accepted has added `allFacts`, over an inventory
that names each path once.
-/

namespace AgentContextLint.EvidenceIndex

open Utf16 Utf8 PlainTable StatefulRuns List

/-! ## Programs that add facts -/

/-- Whenever the program returns, it has added the facts. -/
def Adds {α : Type} (program : Collection α) (facts : List DraftFact) : Prop :=
  ∀ start a finish, program start = .ok (a, finish) →
    finish.facts = start.facts ++ facts ∧
      finish.frozen = start.frozen ++ facts.flatMap frozenBy

variable {α β : Type} {f : α → Collection Unit} {as : List α} {program : Collection α}

theorem adds_pure (a : α) : Adds (pure a : Collection α) [] := by
  intro start b finish ran
  rcases run_pure.mp ran with ⟨_, rfl⟩
  exact ⟨(append_nil _).symm, (append_nil _).symm⟩

theorem adds_get : Adds (get : Collection Context) [] := by
  intro start context finish ran
  cases ran
  exact ⟨(append_nil _).symm, (append_nil _).symm⟩

theorem adds_stopIf {condition : Prop} [Decidable condition] {error : EvidenceIndexError} :
    Adds (stopIf condition error) [] := by
  intro start a finish ran
  rcases run_stopIf ran with ⟨_, rfl⟩
  exact ⟨(append_nil _).symm, (append_nil _).symm⟩

/-- A program that changes neither the facts nor what is frozen. -/
theorem adds_modify {f : Context → Context}
    (same : ∀ context, (f context).facts = context.facts ∧ (f context).frozen = context.frozen) :
    Adds (modify f : Collection Unit) [] := by
  intro start a finish ran
  cases ran
  rw [append_nil, flatMap_nil, append_nil]
  exact same start

theorem Adds.bind {f : α → Collection β} {facts more : List DraftFact} (first : Adds program facts)
    (second : ∀ a, Yields program a → Adds (f a) more) : Adds (program >>= f) (facts ++ more) := by
  intro start b finish ran
  rcases run_bind.mp ran with ⟨a, between, ranFirst, ranSecond⟩
  have one := first start a between ranFirst
  have two := second a ⟨start, between, ranFirst⟩ between b finish ranSecond
  constructor
  · rw [two.1, one.1, append_assoc]
  · rw [two.2, one.2, flatMap_append, append_assoc]

/-- In front of a program that adds facts stands one that adds none. -/
theorem Adds.after {f : α → Collection β} {facts : List DraftFact}
    (first : Adds program []) (second : ∀ a, Yields program a → Adds (f a) facts) :
    Adds (program >>= f) facts := first.bind second

theorem adds_forM {facts : α → List DraftFact}
    (each : ∀ a ∈ as, Adds (f a) (facts a)) : Adds (as.forM f) (as.flatMap facts) := by
  induction as with
  | nil => exact adds_pure ()
  | cons a as ih =>
    apply Adds.bind (each a mem_cons_self)
    intro _ _
    exact ih fun b member => each b (mem_cons_of_mem a member)

/-- A loop that adds nothing. -/
theorem adds_forM_nil (each : ∀ a ∈ as, Adds (f a) []) : Adds (as.forM f) [] := by
  have added := adds_forM each
  rwa [flatMap_eq_nil_iff.mpr fun _ _ => rfl] at added

variable (input : Input)

/-! ## The parts of a collection -/

theorem adds_checkpoint (operation : String) (path : Option RelativePath) :
    Adds (checkpoint input operation path) [] := by
  intro start a finish ran
  unfold checkpoint at ran
  split at ran
  · cases ran
  · cases ran
    exact ⟨(append_nil _).symm, (append_nil _).symm⟩

theorem adds_addFact (fact : DraftFact) : Adds (addFact input fact) [fact] := by
  apply Adds.after adds_stopIf
  intro _ _
  apply Adds.after adds_get
  intro _ _
  apply Adds.after adds_stopIf
  intro _ _ start a finish ran
  cases ran
  exact ⟨rfl, by rw [flatMap_singleton]⟩

theorem adds_addIssue (issue : EvidenceIndexIssue) : Adds (addIssue input issue) [] := by
  apply Adds.after adds_get
  intro _ _
  apply Adds.after adds_stopIf
  intro _ _
  exact adds_modify fun _ => ⟨rfl, rfl⟩

theorem adds_addFacts (facts : List DraftFact) : Adds (facts.forM (addFact input)) facts := by
  have added := adds_forM fun fact (_ : fact ∈ facts) => adds_addFact input fact
  rwa [flatMap_singleton'] at added

theorem adds_emitAll (emissions : List Emission) :
    Adds (emitAll input emissions) (factsOf emissions) := by
  have added : Adds (emitAll input emissions) (emissions.flatMap fun emission => emission.fact?.toList) := by
    apply adds_forM
    intro emission _
    cases emission with
    | fact draft => exact adds_addFact input draft
    | issue issue => exact adds_addIssue input issue
  rwa [← filterMap_eq_flatMap_toList] at added

variable (path : RelativePath)

theorem adds_countNode (depth : Nat) : Adds (countNode input path depth) [] := by
  refine Adds.after (adds_modify fun _ => ⟨rfl, rfl⟩) ?_
  intro _ _
  apply Adds.after adds_get
  intro _ _
  exact adds_stopIf

mutual

-- the budgets of a value, of its items and of its fields call one another: so do these three
theorem adds_jsonBudget (path : RelativePath) (depth : Nat) (value : ParsedJson) :
    Adds (jsonBudget input path depth value) [] := by
  cases value with
  | null => rw [jsonBudget]; exact adds_countNode input path depth
  | boolean b => rw [jsonBudget]; exact adds_countNode input path depth
  | number => rw [jsonBudget]; exact adds_countNode input path depth
  | string text =>
    rw [jsonBudget]
    exact (adds_countNode input path depth).after fun _ _ => adds_stopIf
  | array items =>
    rw [jsonBudget]
    exact (adds_countNode input path depth).after fun _ _ => adds_itemsBudget path (depth + 1) items
  | object fields =>
    rw [jsonBudget]
    exact (adds_countNode input path depth).after fun _ _ => adds_stopIf.after fun _ _ =>
      adds_fieldsBudget path (depth + 1) fields

theorem adds_itemsBudget (path : RelativePath) (depth : Nat) (items : List ParsedJson) :
    Adds (itemsBudget input path depth items) [] := by
  cases items with
  | nil => rw [itemsBudget]; exact adds_pure ()
  | cons item rest =>
    rw [itemsBudget]
    exact (adds_itemsBudget path depth rest).after fun _ _ => adds_jsonBudget path depth item

theorem adds_fieldsBudget (path : RelativePath) (depth : Nat)
    (fields : List (Text × ParsedJson)) : Adds (fieldsBudget input path depth fields) [] := by
  cases fields with
  | nil => rw [fieldsBudget]; exact adds_pure ()
  | cons field rest =>
    cases field with
    | mk key value =>
      rw [fieldsBudget]
      exact (adds_fieldsBudget path depth rest).after fun _ _ => adds_jsonBudget path depth value

end

variable {paths : List Text}

theorem adds_budget (kind : ReadKind) (document : TextDocument) :
    Adds (budget input kind document) [] := by
  unfold budget
  split_ifs
  · split
    · exact adds_pure ()
    · exact adds_jsonBudget input document.path 0 _
  · exact adds_pure ()

/-! ## Files -/

def documentOf (path : RelativePath) : Option TextDocument :=
  match input.readFile path with
  | .bytes bytes => (decodeWithoutBom bytes).map (⟨path, ·⟩)
  | .refused _ => none

/-- The program adds nothing, and returns one result only. -/
def Reads (program : Collection α) (result : α) : Prop :=
  Adds program [] ∧ ∀ read, Yields program read → read = result

theorem reads_pure (a : α) : Reads (pure a) a :=
  ⟨adds_pure a, fun _ ran => (yields_pure ran).symm⟩

theorem Adds.reads {program : Collection α} {f : α → Collection β} {result : β}
    (first : Adds program []) (second : ∀ a, Reads (f a) result) : Reads (program >>= f) result := by
  refine ⟨first.after fun a _ => (second a).1, ?_⟩
  intro read ran
  rcases yields_of_bind ran with ⟨a, ran⟩
  exact (second a).2 read ran

theorem reads_readBytes (bytes : List UInt8) :
    Reads (readBytes input path bytes) ((decodeWithoutBom bytes).map (⟨path, ·⟩)) := by
  refine Adds.reads (adds_modify fun _ => ⟨rfl, rfl⟩) ?_
  intro _
  apply adds_get.reads
  intro _
  apply adds_stopIf.reads
  intro _
  refine Adds.reads (adds_modify fun _ => ⟨rfl, rfl⟩) ?_
  intro _
  cases decodeWithoutBom bytes with
  | none => exact (adds_addIssue input _).reads fun _ => reads_pure none
  | some text => exact adds_stopIf.reads fun _ => reads_pure _

theorem reads_readText : Reads (readText input path) (documentOf input path) := by
  apply (adds_checkpoint input _ _).reads
  intro _
  unfold documentOf
  cases input.readFile path with
  | bytes bytes => exact reads_readBytes input path bytes
  | refused code =>
    apply adds_stopIf.reads
    intro _
    apply adds_stopIf.reads
    intro _
    exact (adds_addIssue input _).reads fun _ => reads_pure none

def parsedFile (path : RelativePath) : Option (TextDocument × ReadKind) :=
  match readKind path (completeManifestPaths input.workspace), documentOf input path with
  | some kind, some document => some (document, kind)
  | _, _ => none

def fileFacts (path : RelativePath) : List DraftFact :=
  match parsedFile input path with
  | none => []
  | some (document, kind) => factsOf (parseDocument document kind)

theorem adds_collectFile : Adds (collectFile input path) (fileFacts input path) := by
  unfold collectFile fileFacts parsedFile
  cases readKind path (completeManifestPaths input.workspace) with
  | none => exact adds_pure ()
  | some kind =>
    have spec := reads_readText input path
    apply spec.1.after
    intro read ran
    rw [spec.2 read ran]
    cases documentOf input path with
    | none => exact adds_pure ()
    | some document =>
      exact (adds_budget input kind document).after fun _ _ => adds_emitAll input _

/-! ## The collection -/

/-- All facts, in the order in which they are added. -/
def allFacts : List DraftFact :=
  configurationFacts input.configuredPackageManager ++ (input.paths.flatMap pathFacts ++
    (input.workspace.evidence.flatMap recordFacts ++ input.paths.flatMap (fileFacts input)))

theorem adds_snapshotPathsFrom (previous : Option Text) (paths : List Text) :
    Adds (snapshotPathsFrom input previous paths) [] := by
  induction paths generalizing previous with
  | nil => exact adds_pure ()
  | cons item rest ih =>
    apply (adds_checkpoint input _ _).after
    intro _ _
    exact adds_stopIf.after fun _ _ => adds_stopIf.after fun _ _ => adds_stopIf.after fun _ _ =>
      ih (some item)

theorem adds_snapshotWorkspace : Adds (snapshotWorkspace input) [] := by
  apply adds_stopIf.after
  intro _ _
  apply adds_stopIf.after
  intro _ _
  have records : Adds (input.workspace.evidence.forM (snapshotRecord input)) [] := by
    apply adds_forM_nil
    intro record _
    exact adds_stopIf.after fun _ _ => adds_stopIf.after fun _ _ => adds_stopIf.after fun _ _ =>
      adds_stopIf.after fun _ _ => adds_stopIf.after fun _ _ => adds_stopIf
  exact records.after fun _ _ => adds_stopIf.after fun _ _ => adds_stopIf

theorem adds_collect : Adds (collect input) (allFacts input) := by
  have paths : Adds (snapshotPaths input) [] :=
    adds_stopIf.after fun _ _ => adds_snapshotPathsFrom input none input.paths
  have indexed : Adds (input.paths.forM (collectPath input)) (input.paths.flatMap pathFacts) := by
    apply adds_forM
    intro path _
    exact (adds_checkpoint input _ _).after fun _ _ => adds_addFacts input _
  have files : Adds (input.paths.forM (collectFile input)) (input.paths.flatMap (fileFacts input)) :=
    adds_forM fun path _ => adds_collectFile input path
  apply paths.after
  intro _ _
  apply (adds_snapshotWorkspace input).after
  intro _ _
  apply (adds_addFacts input _).bind
  intro _ _
  apply indexed.bind
  intro _ _
  apply (adds_addFacts input _).bind
  intro _ _
  have last := files.bind fun _ _ => adds_checkpoint input "publish" none
  rwa [append_nil] at last

/-! ## The inventory -/

/-- What `snapshotPaths` has checked of a path. -/
structure PathChecked (path : Text) : Prop where
  safe : unsafeText path = false
  notRoot : path ≠ RepositoryPath.repositoryRoot
  canonical : isCanonical path

theorem checked_of_snapshotPathsFrom {previous : Option Text}
    (ran : Yields (snapshotPathsFrom input previous paths) ()) :
    (∀ path ∈ paths, PathChecked path) ∧
      (previous.toList ++ paths).IsChain fun before item => compareUnits before item = .lt := by
  induction paths generalizing previous with
  | nil =>
    refine ⟨forall_mem_nil _, ?_⟩
    rw [append_nil]
    cases previous with
    | none => exact isChain_nil
    | some before => exact isChain_singleton before
  | cons item rest ih =>
    rcases yields_of_bind ran with ⟨_, ran⟩
    rcases yields_stopIf_bind ran with ⟨sound, ran⟩
    rcases yields_stopIf_bind ran with ⟨_, ran⟩
    rcases yields_stopIf_bind ran with ⟨inOrder, ran⟩
    rcases ih ran with ⟨checked, chain⟩
    have canonical : isCanonical item :=
      of_not_not fun other => inOrder (.inr (.inl other))
    constructor
    · intro path member
      rcases mem_cons.mp member with rfl | later
      · exact ⟨Bool.eq_false_iff.mpr fun hazard => sound (.inr (.inr hazard)),
          fun root => inOrder (.inl root), canonical⟩
      · exact checked path later
    · cases previous with
      | none => exact chain
      | some before =>
        have less : compareUnits before item = .lt :=
          of_not_not fun other => inOrder (.inr (.inr ⟨before, rfl, other⟩))
        exact isChain_cons_cons.mpr ⟨less, chain⟩

/-- An accepted inventory. -/
structure InventoryChecked (input : Input) : Prop where
  paths : ∀ path ∈ input.paths, PathChecked path
  nodup : input.paths.Nodup

theorem inventoryChecked_of_chain
    (chain : paths.IsChain fun before item => compareUnits before item = .lt) : paths.Nodup := by
  have ordered : paths.IsChain (· < ·) :=
    chain.imp fun before item less => compareUnits_eq_lt_iff.mp less
  apply (isChain_iff_pairwise.mp ordered).imp
  intro before item less same
  have order := compareUnits_eq_lt_iff.mpr less
  rw [compareUnits_eq_iff.mpr same] at order
  cases order

/-- Everything that an accepted collection publishes comes from `allFacts`. -/
theorem collectRepositoryEvidence_eq_ok {index : RepositoryEvidenceIndex} {frozen : List Text}
    (accepted : collectRepositoryEvidence input = .ok (index, frozen)) :
    index.facts = publish (allFacts input) ∧ index.conflicts = buildConflicts index.facts ∧
      frozen = (allFacts input).flatMap frozenBy ∧ InventoryChecked input ∧
      Yields (snapshotWorkspace input) () := by
  rcases Metered.bind_eq_ok.mp accepted with ⟨⟨⟨⟩, context⟩, ran, returned⟩
  cases returned
  have added := adds_collect input _ _ _ ran
  have yields : Yields (collect input) () := ⟨_, _, ran⟩
  rcases yields_bind yields with ⟨_, pathsRan, yields⟩
  rcases yields_bind yields with ⟨_, workspaceRan, _⟩
  rcases yields_stopIf_bind pathsRan with ⟨_, pathsRan⟩
  rcases checked_of_snapshotPathsFrom input pathsRan with ⟨checked, chain⟩
  have facts : context.facts = allFacts input := added.1
  refine ⟨?_, rfl, added.2, ⟨checked, inventoryChecked_of_chain chain⟩, workspaceRan⟩
  rw [← facts]
  rfl

end AgentContextLint.EvidenceIndex
