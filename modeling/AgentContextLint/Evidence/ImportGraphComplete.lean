import AgentContextLint.Evidence.ImportGraphShape

/-!
# Complete import graphs

A load that reports no issue has followed every reference: its documents are the files reached
from the entry, and the edges of each are its references, in order. `CompleteWalk` is what a
walk establishes that leaves no issue behind.
-/

namespace AgentContextLint.ImportGraph

open Utf16 RepositoryPath Arcs List

/-! ## Reachable files -/

def referencesAt (loader : Loader) (path : RelativePath) : Option (List ImportReference) :=
  match loader.readFile path with
  | .error _ => none
  | .ok file => (parseDocument loader (idsOf loader path file) file.bytes).toOption

/-- The file at a path has a recognized reference to another one. -/
def Imports (loader : Loader) (path targetPath : RelativePath) : Prop :=
  ∃ references ∈ referencesAt loader path, ∃ reference ∈ references,
    Refers path reference targetPath

/-- What the file at a path imports, over any number of files. -/
abbrev Reaches (loader : Loader) : RelativePath → RelativePath → Prop :=
  Relation.ReflTransGen (Imports loader)

theorem referencesAt_of_parsed {loader : Loader} {path : RelativePath}
    {file : ReadOnlyRepositoryFile} {imports : List ImportReference}
    (read : loader.readFile path = .ok file)
    (parsed : parseDocument loader (idsOf loader path file) file.bytes = .ok imports) :
    referencesAt loader path = some imports := by
  simp only [referencesAt, read, parsed]
  rfl

section Walks

variable {loader : Loader} {document : OpenDocument} {referenceIndex : Nat}
  {references : List ImportReference} {state final : MutableState} {forest : Forest}

def ReferencesOf (loader : Loader) (document : OpenDocument) (references : List ImportReference) :
    Prop :=
  ∃ all ∈ referencesAt loader document.path, references ⊆ all

theorem ReferencesOf.tail {reference : ImportReference}
    (of : ReferencesOf loader document (reference :: references)) :
    ReferencesOf loader document references :=
  let ⟨all, here, subset⟩ := of
  ⟨all, here, fun _ member => subset (mem_cons_of_mem _ member)⟩

variable {targetPath : RelativePath}

theorem ReferencesOf.imports {reference : ImportReference}
    (of : ReferencesOf loader document (reference :: references))
    (refers : Refers document.path reference targetPath) :
    Imports loader document.path targetPath :=
  let ⟨all, here, subset⟩ := of
  ⟨all, here, reference, subset mem_cons_self, refers⟩

theorem Walk.reaches (walk : Walk loader document referenceIndex references state forest final)
    (of : ReferencesOf loader document references) :
    ∀ node ∈ forest.nodes, Reaches loader document.path node.path := by
  induction walk with
  | done => exact fun _ member => by cases member
  | halted => exact fun _ member => by cases member
  | exhausted => exact fun _ member => by cases member
  | leaf _ _ _ _ ih => exact ih of.tail
  | unparsed _ _ descends _ _ ih =>
    refine forall_mem_cons.mpr ⟨?_, ih of.tail⟩
    rw [nodeOf_path]
    exact .single (of.imports descends.refers)
  | parsed _ _ descends parsed _ _ childrenIh ih =>
    have step := of.imports descends.refers
    refine forall_mem_cons.mpr ⟨?_, fun node member => ?_⟩
    · rw [nodeOf_path]
      exact .single step
    rcases mem_append.mp member with inner | later
    · exact .head step (childrenIh
        ⟨_, referencesAt_of_parsed descends.read parsed, Subset.refl _⟩ node inner)
    · exact ih of.tail node later

/-! ## Issues stay -/

variable {limits : ImportGraphLimits} (state) in
theorem addIssue_ne_nil {code : ImportGraphIssueCode} {path : RelativePath}
    {reference : Option ImportReference} {targetPath : Option RelativePath}
    (some : 1 ≤ limits.maxIssues) :
    (addIssue limits state code path reference targetPath).issues ≠ [] := by
  simp only [addIssue]
  split
  · rename_i full
    exact ne_nil_of_length_pos (by omega)
  · simp

variable (state) in
theorem issues_eq_nil_of_addIssue {code : ImportGraphIssueCode} {path : RelativePath}
    {reference : Option ImportReference} {targetPath : Option RelativePath}
    (none : (addIssue limits state code path reference targetPath).issues = []) :
    state.issues = [] := by
  simp only [addIssue] at none
  split at none
  · exact none
  · simp at none

section Entering

variable {path : RelativePath} {depth : Nat} {file : ReadOnlyRepositoryFile}
  {parent : Option Parent} {code : ImportGraphIssueCode} (depth file) in
theorem unparsedState_issues_ne_nil (some : 1 ≤ loader.limits.maxIssues) :
    (unparsedState loader state path depth file parent code).issues ≠ [] :=
  addIssue_ne_nil (enterState loader state path depth file) some

variable (depth file) in
theorem issues_eq_nil_of_unparsedState
    (none : (unparsedState loader state path depth file parent code).issues = []) :
    state.issues = [] :=
  issues_eq_nil_of_addIssue (enterState loader state path depth file) none

variable (state) in
theorem issues_eq_nil_of_openState {imports : List ImportReference}
    (none : (openState loader state path depth file imports).issues = []) : state.issues = [] := by
  unfold openState reportFanOut at none
  dsimp only at none
  split at none
  · exact issues_eq_nil_of_addIssue _ none
  · exact none

/-- No reference is left out when none is reported to be. -/
theorem length_imports_le {imports : List ImportReference} (some : 1 ≤ loader.limits.maxIssues)
    (none : (openState loader state path depth file imports).issues = []) :
    imports.length ≤ loader.limits.maxFanOut := by
  unfold openState reportFanOut at none
  dsimp only at none
  split at none
  · exact absurd none (addIssue_ne_nil _ some)
  · rename_i found
    exact getElem?_eq_none_iff.mp found

end Entering

variable {known : List ImportGraphNode} {reference : ImportReference}

/-- What is reported stays reported. -/
theorem Walk.issues_eq_nil
    (walk : Walk loader document referenceIndex references state forest final)
    (none : final.issues = []) : state.issues = [] := by
  induction walk with
  | done => exact none
  | halted => exact none
  | exhausted => exact issues_eq_nil_of_addIssue _ none
  | @leaf _ _ _ _ _ _ _ issue _ _ _ _ _ _ ih =>
    cases issue with
    | none => exact ih none
    | some issue => exact issues_eq_nil_of_addIssue _ (ih none)
  | @unparsed _ _ _ _ _ _ _ file _ _ _ _ _ _ _ ih =>
    exact issues_eq_nil_of_unparsedState 0 file (ih none)
  | parsed _ _ _ _ _ _ childrenIh ih => exact issues_eq_nil_of_openState (takeSlot _) (childrenIh (ih none))

/-! ## Walks that leave no issue -/

/-- Every reference has a branch, to a document that is loaded now or was before, and the
documents are closed under imports. -/
structure CompleteWalk (loader : Loader) (known : List ImportGraphNode) (document : OpenDocument)
    (references : List ImportReference) (forest : Forest) : Prop where
  branches : forest.references = references
  recognized : ∀ reference ∈ references, reference.state = .recognized
  resolved : ∀ edge ∈ forest.edges, edge.state = .loaded ∨ edge.state = .alreadyLoaded
  subtrees : ∀ tree ∈ forest.subtrees, tree.2.references = tree.1.imports ∧
    ∀ reference ∈ tree.1.imports, reference.state = .recognized
  closed : ∀ reference ∈ references, ∀ targetPath, Refers document.path reference targetPath →
    targetPath ∈ known.map (·.path)
  closedBelow : ∀ node ∈ forest.nodes, ∀ targetPath, Imports loader node.path targetPath →
    targetPath ∈ known.map (·.path)

theorem Refers.unique {path other : RelativePath} (refers : Refers path reference targetPath)
    (also : Refers path reference other) : targetPath = other :=
  Option.some.inj (refers.resolved.symm.trans also.resolved)

theorem CompleteWalk.leaf {documentId : Text}
    (complete : CompleteWalk loader known document references forest)
    (refers : Refers document.path reference targetPath) (member : targetPath ∈ known.map (·.path)) :
    CompleteWalk loader known document (reference :: references)
      (.leaf (edgeOf document reference .alreadyLoaded (some targetPath) (some documentId) none)
        forest) where
  branches := congrArg (reference :: ·) complete.branches
  recognized := forall_mem_cons.mpr ⟨refers.recognized, complete.recognized⟩
  resolved := forall_mem_cons.mpr ⟨.inr rfl, complete.resolved⟩
  subtrees := complete.subtrees
  closed := forall_mem_cons.mpr
    ⟨fun _ also => refers.unique also ▸ member, complete.closed⟩
  closedBelow := complete.closedBelow

theorem CompleteWalk.loaded {path : RelativePath} {depth : Nat}
    {file : ReadOnlyRepositoryFile} {imports : List ImportReference} {children : Forest}
    (complete : CompleteWalk loader known document references forest)
    (below : CompleteWalk loader known (documentOf loader path depth file) imports children)
    (refers : Refers document.path reference path) (read : loader.readFile path = .ok file)
    (parsed : parseDocument loader (idsOf loader path file) file.bytes = .ok imports)
    (member : nodeOf loader path depth file ∈ known) :
    CompleteWalk loader known document (reference :: references)
      (.loaded (childEdge document reference path (.loaded (idsOf loader path file).documentId))
        (nodeOf loader path depth file) children forest) where
  branches := congrArg (reference :: ·) complete.branches
  recognized := forall_mem_cons.mpr ⟨refers.recognized, complete.recognized⟩
  resolved := forall_mem_cons.mpr
    ⟨.inl rfl, forall_mem_append.mpr ⟨below.resolved, complete.resolved⟩⟩
  subtrees := forall_mem_cons.mpr
    ⟨by rw [nodeOf_imports_of_ok _ parsed]; exact ⟨below.branches, below.recognized⟩,
      forall_mem_append.mpr ⟨below.subtrees, complete.subtrees⟩⟩
  closed := forall_mem_cons.mpr
    ⟨fun _ also => refers.unique also ▸ mem_map.mpr ⟨_, member, nodeOf_path ..⟩,
      complete.closed⟩
  closedBelow := by
    refine forall_mem_cons.mpr ⟨fun targetPath imported => ?_,
      forall_mem_append.mpr ⟨below.closedBelow, complete.closedBelow⟩⟩
    rw [nodeOf_path] at imported
    obtain ⟨all, here, reference, inAll, refers⟩ := imported
    rw [referencesAt_of_parsed read parsed] at here
    cases here
    exact below.closed reference inAll targetPath refers

theorem CompleteWalk.nil : CompleteWalk loader known document [] .nil where
  branches := rfl
  recognized := fun _ member => by cases member
  resolved := fun _ member => by cases member
  subtrees := fun _ member => by cases member
  closed := fun _ member => by cases member
  closedBelow := fun _ member => by cases member

theorem Walk.complete (walk : Walk loader document referenceIndex references state forest final)
    (issues : 1 ≤ loader.limits.maxIssues) (tracked : Tracked state) (subset : final.nodes ⊆ known)
    (room : referenceIndex + references.length ≤ loader.limits.maxFanOut)
    (running : state.halted = false) (none : final.issues = []) :
    final.halted = false ∧ CompleteWalk loader known document references forest := by
  induction walk with
  | done => exact ⟨running, .nil⟩
  | halted halted => rw [running] at halted; cases halted
  | exhausted => exact absurd none (addIssue_ne_nil _ issues)
  | leaf _ _ outcome walk ih =>
    have before := Subset.trans walk.subset_nodes subset
    rw [afterOutcome_nodes] at before
    have reported := walk.issues_eq_nil none
    obtain ⟨halted, complete⟩ := ih tracked.afterOutcome subset
      (by rw [length_cons] at room; omega) (by rwa [afterOutcome_halted]) none
    refine ⟨halted, ?_⟩
    cases outcome with
    | fanOut omitted => rw [length_cons] at room; omega
    | refused => exact absurd reported (addIssue_ne_nil (takeSlot _) issues)
    | cycle => exact absurd reported (addIssue_ne_nil (takeSlot _) issues)
    | alreadyLoaded refers completed =>
      obtain ⟨node, member, path, -⟩ := tracked.completed _ _ completed
      exact complete.leaf refers (mem_map.mpr ⟨node, before member, path⟩)
  | @unparsed _ _ _ _ _ _ _ file _ _ _ _ _ _ walk _ =>
    exact absurd (walk.issues_eq_nil none)
      (unparsedState_issues_ne_nil 0 file issues)
  | parsed _ _ descends parsed children walk childrenIh ih =>
    have before := Subset.trans walk.subset_nodes subset
    have inner := walk.issues_eq_nil none
    have few := length_imports_le issues (children.issues_eq_nil inner)
    obtain ⟨childHalted, below⟩ := childrenIh
      (tracked.takeSlot.opened descends.inactive descends.incomplete) before
      (by rwa [Nat.zero_add]) (by rw [openState_halted]; exact running) inner
    have middle := children.tracked
      (tracked.takeSlot.opened descends.inactive descends.incomplete)
    have closes := middle.closed (children.subset_nodes (mem_openState_nodes ..))
    obtain ⟨halted, complete⟩ := ih closes.addLoadedEdge subset
      (by rw [length_cons] at room; omega) childHalted none
    exact ⟨halted, complete.loaded below descends.refers descends.read parsed
      (before (children.subset_nodes (mem_openState_nodes ..)))⟩

end Walks

variable {entryPath : RelativePath} {imports : List ImportReference}
  {file : ReadOnlyRepositoryFile} {final : MutableState} {loader : Loader} {forest : Forest}

/-! ## Complete results -/

/-- What a complete result says of the files behind it: its documents are those reached from
the entry, and its edges, all to loaded documents, go through their references in depth-first
pre-order. -/
structure Completed (imports : RelativePath → RelativePath → Prop)
    (result : ImportGraphResult) : Prop where
  reachable : ∀ path, path ∈ result.nodes.map (·.path) ↔
    Relation.ReflTransGen imports result.entryPath path
  recognized : ∀ node ∈ result.nodes, ∀ reference ∈ node.imports, reference.state = .recognized
  resolved : ∀ edge ∈ result.edges, edge.state = .loaded ∨ edge.state = .alreadyLoaded
  sourceOrder : ∀ node ∈ result.nodes, node.imports.Pairwise fun first second =>
    first.range.start.utf16Offset < second.range.start.utf16Offset
  preorder : ∃ (entry : ImportGraphNode) (forest : Forest),
    result.nodes = entry :: forest.nodes ∧ result.edges = forest.edges ∧
    forest.Matches entry.documentId ∧
    ∀ tree ∈ (entry, forest) :: forest.subtrees, tree.2.references = tree.1.imports

/-- The edges from a document are its references, in order and one for each. -/
structure OneEdgeEach (result : ImportGraphResult) (node : ImportGraphNode) : Prop where
  edgesFrom : Forest.edgesFrom node.documentId result.edges = node.imports
  one : ∀ reference ∈ node.imports, result.edges.countP (fun edge =>
    edge.fromDocumentId = node.documentId ∧ edge.reference = reference) = 1

theorem oneEdgeEach {result : ImportGraphResult} {node : ImportGraphNode}
    (edgesFrom : Forest.edgesFrom node.documentId result.edges = node.imports)
    (nodup : node.imports.Nodup) : OneEdgeEach result node := by
  refine ⟨edgesFrom, fun reference member => ?_⟩
  rw [← count_eq_one_of_mem nodup member, ← edgesFrom, Forest.edgesFrom, count,
    countP_map, countP_filter]
  refine countP_congr fun edge _ => ?_
  simp [and_comm]

/-- A run that leaves no issue: the entry was opened, and its walk is complete. -/
structure CompleteRun (loader : Loader) (entryPath : RelativePath)
    (file : ReadOnlyRepositoryFile) (imports : List ImportReference) (forest : Forest)
    (final : MutableState) : Prop where
  nodes : final.nodes = nodeOf loader entryPath 0 file :: forest.nodes
  edges : final.edges = forest.edges
  fits : forest.Matches (nodeOf loader entryPath 0 file).documentId
  ofEntry : (nodeOf loader entryPath 0 file).imports = imports
  references : referencesAt loader entryPath = some imports
  reaches : ∀ node ∈ forest.nodes, Reaches loader entryPath node.path
  walk : CompleteWalk loader final.nodes (documentOf loader entryPath 0 file) imports forest

theorem Visits.complete {result : VisitResult × MutableState} (issues : 1 ≤ loader.limits.maxIssues)
    (visits : Visits loader initialState entryPath 0 none result) (none : result.2.issues = []) :
    ∃ file imports forest, CompleteRun loader entryPath file imports forest result.2 := by
  cases visits with
  | failed => exact absurd none (addIssue_ne_nil _ issues)
  | @unparsed file =>
    exact absurd none (unparsedState_issues_ne_nil 0 file issues)
  | @parsed file imports children middle enters parsed walk =>
    have few := length_imports_le issues (walk.issues_eq_nil none)
    have opened : Tracked (openState loader initialState entryPath 0 file imports) :=
      tracked_initialState.opened rfl rfl
    have references := referencesAt_of_parsed enters.read parsed
    have complete := (walk.complete issues opened (Subset.refl _) (by rwa [Nat.zero_add])
      (by rw [openState_halted]; rfl) none).2
    exact ⟨file, imports, children, {
      nodes := by
        change middle.nodes = _
        rw [walk.nodes, openState_nodes]
        rfl
      edges := by
        change middle.edges = _
        rw [walk.edges, openState_edges]
        rfl
      fits := by rw [nodeOf_documentId]; exact walk.matches
      ofEntry := nodeOf_imports_of_ok _ parsed
      references := references
      reaches := walk.reaches ⟨imports, references, Subset.refl _⟩
      walk := complete }⟩

/-- The documents of a complete run are the files that the entry reaches. -/
theorem CompleteRun.reachable {entryPath path : RelativePath} (run : CompleteRun loader entryPath file imports forest final) :
    path ∈ final.nodes.map (·.path) ↔ Reaches loader entryPath path := by
  constructor
  · intro member
    rw [run.nodes, map_cons, nodeOf_path] at member
    rcases mem_cons.mp member with rfl | member
    · exact .refl
    · obtain ⟨node, inForest, rfl⟩ := mem_map.mp member
      exact run.reaches node inForest
  · intro reaches
    induction reaches with
    | refl =>
      rw [run.nodes, map_cons, nodeOf_path]
      exact mem_cons_self
    | tail _ imported ih =>
      rw [run.nodes, map_cons, nodeOf_path] at ih
      rcases mem_cons.mp ih with rfl | member
      · obtain ⟨all, here, reference, inAll, refers⟩ := imported
        rw [run.references] at here
        cases here
        exact run.walk.closed reference inAll _ refers
      · obtain ⟨node, inForest, rfl⟩ := mem_map.mp member
        exact run.walk.closedBelow node inForest _ imported

theorem CompleteRun.subtrees (run : CompleteRun loader entryPath file imports forest final) :
    ∀ tree ∈ (nodeOf loader entryPath 0 file, forest) :: forest.subtrees,
      tree.2.references = tree.1.imports ∧
        ∀ reference ∈ tree.1.imports, reference.state = .recognized := by
  refine forall_mem_cons.mpr ⟨?_, run.walk.subtrees⟩
  rw [run.ofEntry]
  exact ⟨run.walk.branches, run.walk.recognized⟩

theorem CompleteRun.completed (complete : CompleteRun loader entryPath file imports forest final)
    (run : Run loader entryPath final) :
    Completed (Imports loader) (resultOf loader.syntaxName entryPath final) where
  reachable := fun _ => complete.reachable
  recognized := fun node member =>
    let ⟨_, tree⟩ := Forest.exists_subtree (complete.nodes ▸ member)
    (complete.subtrees _ tree).2
  resolved := by
    change ∀ edge ∈ final.edges, _
    rw [complete.edges]
    exact complete.walk.resolved
  sourceOrder := fun node member =>
    let ⟨_, _, _, _, lexed⟩ := (run.nodeOk node member).lexed
    lexed.ordered
  preorder := ⟨_, forest, complete.nodes, complete.edges, complete.fits,
    fun tree member => (complete.subtrees tree member).1⟩

theorem CompleteRun.oneEdgeEach (complete : CompleteRun loader entryPath file imports forest final)
    (run : Run loader entryPath final) (nodup : (final.nodes.map (·.documentId)).Nodup)
    (node : ImportGraphNode) (member : node ∈ final.nodes) :
    OneEdgeEach (resultOf loader.syntaxName entryPath final) node := by
  obtain ⟨below, tree⟩ := Forest.exists_subtree (complete.nodes ▸ member)
  obtain ⟨_, _, _, _, lexed⟩ := (run.nodeOk node member).lexed
  refine ImportGraph.oneEdgeEach ?_ lexed.nodup.of_map
  rw [complete.nodes] at nodup
  change Forest.edgesFrom node.documentId final.edges = node.imports
  rw [complete.edges, Forest.edgesFrom_of_tree complete.fits nodup _ tree]
  exact (complete.subtrees _ tree).1

/-- What a load of an input reads, without its limits. -/
def sourceLoader (extractMarkdownContent : (sourceId text : Text) → Option MarkdownExtractionResult)
    (input : LoadImportGraphInput) : Loader where
  limits := defaultImportGraphLimits
  readFile := input.repository.readFile
  extractMarkdownContent := extractMarkdownContent
  syntaxName := input.syntaxName

/-- A result in state `complete` has the files reached from the entry as its nodes and one
edge, to a loaded document, for each of their references. -/
theorem loadImportGraph_complete
    (extractMarkdownContent : (sourceId text : Text) → Option MarkdownExtractionResult)
    (input : LoadImportGraphInput) (limitsValue : Option ImportGraphLimitsInput)
    (result : ImportGraphResult)
    (run : loadImportGraph extractMarkdownContent input limitsValue = .ok result)
    (complete : result.state = .complete) :
    result.entryPath = input.entryPath ∧
      Completed (Imports (sourceLoader extractMarkdownContent input)) result ∧
      (Sha256.CollisionFree (identityInputs result) →
        ∀ node ∈ result.nodes, OneEdgeEach result node) := by
  obtain ⟨-, -, loader, final, admissible, -, readFile, extract, syntaxName, ⟨visited, visits⟩,
    whole, rfl, -⟩ := loadImportGraph_eq_ok run
  have none : final.issues = [] := by
    change (if final.issues.length = 0 then ImportGraphState.complete else .incomplete) = _
      at complete
    split at complete
    · rename_i empty
      exact length_eq_zero_iff.mp empty
    · cases complete
  have same : Imports (sourceLoader extractMarkdownContent input) = Imports loader := by
    rw [sourceLoader, ← readFile, ← extract, ← syntaxName]
    rfl
  obtain ⟨file, imports, forest, completes⟩ := visits.complete admissible.maxIssues.1 none
  rw [same, ← syntaxName]
  exact ⟨rfl, completes.completed whole, fun free =>
    completes.oneEdgeEach whole (whole.rooted free).documentIds⟩

/-- A document that is imported twice. -/
def importDiamond : LoadImportGraphInput where
  repository := {
    inspect := fun _ => .error .other
    readFile := fun path =>
      let file := fun inode text =>
        .ok ⟨⟨js "1", js inode⟩, 0, path, 0, Utf8.encode (js text)⟩
      if path = js "docs/a.md" then file "1" "@./b.md and @../c.md"
      else if path = js "docs/b.md" then file "2" "@../c.md"
      else file "3" "" }
  entryPath := js "docs/a.md"
  syntaxName := .claudeCode

/-- Two files that import the same third one. -/
theorem loadImportGraph_complete_diamond :
    ∃ result, loadImportGraph plainMarkdown importDiamond none = .ok result ∧
      result.nodes.map (·.path) = [js "docs/a.md", js "docs/b.md", js "c.md"] ∧
      result.edges.map (·.state) = [.loaded, .loaded, .alreadyLoaded] ∧
      Completed (Imports (sourceLoader plainMarkdown importDiamond)) result ∧
      ∀ node ∈ result.nodes, OneEdgeEach result node := by
  have run : (loadImportGraph plainMarkdown importDiamond none).map (fun result =>
      (result.state, result.nodes.map (·.path), result.edges.map (·.state),
        decide (Sha256.CollisionFree (identityInputs result)))) =
        .ok (.complete, [js "docs/a.md", js "docs/b.md", js "c.md"],
          [.loaded, .loaded, .alreadyLoaded], true) := by decide +kernel
  obtain ⟨result, run, shape⟩ := Metered.eq_ok_of_map run
  obtain ⟨complete, shape⟩ := Prod.mk.inj shape
  obtain ⟨paths, shape⟩ := Prod.mk.inj shape
  obtain ⟨states, free⟩ := Prod.mk.inj shape
  obtain ⟨-, completed, one⟩ :=
    loadImportGraph_complete plainMarkdown importDiamond none result run complete
  exact ⟨result, run, paths, states, completed, one (of_decide_eq_true free)⟩

end AgentContextLint.ImportGraph
