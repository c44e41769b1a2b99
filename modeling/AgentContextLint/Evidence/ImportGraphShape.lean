import AgentContextLint.Evidence.ImportGraphForest

/-!
# The shape of an import graph

`loadImportGraph_accounted` collects what holds of every result: unique documents, counters
within the limits, targets inside the root, loaded edges that form a tree at the entry, and
no cycle through edges to loaded documents.
-/

namespace AgentContextLint.ImportGraph

open Utf16 RepositoryPath Arcs List
open Metered (bind_eq_ok eq_ok_of_map)
open Sha256 (CollisionFree sha256Hex)

/-! ## Arcs -/

variable (select : ImportGraphEdgeState → Bool)

/-- The arcs of the edges in some states, between the identifiers of documents. -/
def arcsOf (edges : List ImportGraphEdge) : List (Text × Text) :=
  edges.filterMap fun edge =>
    if select edge.state then edge.targetDocumentId.map (edge.fromDocumentId, ·) else none

def loadedArcs : List ImportGraphEdge → List (Text × Text) := arcsOf (· == .loaded)

/-- The arcs of the edges to documents that are loaded. -/
def resolvedArcs : List ImportGraphEdge → List (Text × Text) :=
  arcsOf fun state => state == .loaded || state == .alreadyLoaded

variable (first second : List ImportGraphEdge)

theorem arcsOf_append :
    arcsOf select (first ++ second) = arcsOf select first ++ arcsOf select second :=
  filterMap_append

section Walks

variable {loader : Loader} {document : OpenDocument} {referenceIndex : Nat}
  {references : List ImportReference} {state final : MutableState} {forest : Forest}
  {finished : List Text}
  {edges : List ImportGraphEdge} {edge : ImportGraphEdge} {reference : ImportReference}

/-- An outcome is no loaded edge, and a resolved one only to a completed document. -/
theorem Outcome.arcs {issue : Option (ImportGraphIssueCode × Option RelativePath)}
    {reads : List RelativePath}
    (outcome : Outcome loader.limits document state referenceIndex reference edge issue reads) :
    loadedArcs [edge] = [] ∧ ∀ arc ∈ resolvedArcs [edge], arc.1 = document.documentId ∧
      ∃ path, state.completed path = some arc.2 := by
  cases outcome with
  | fanOut => exact ⟨rfl, fun _ member => by cases member⟩
  | @refused edgeState _ _ _ refusal _ _ =>
    cases edgeState with
    | loaded => cases refusal
    | alreadyLoaded => cases refusal
    | cycle => cases refusal
    | _ => exact ⟨rfl, fun _ member => by cases member⟩
  | cycle => exact ⟨rfl, fun _ member => by cases member⟩
  | alreadyLoaded _ completed =>
    refine ⟨rfl, fun arc member => ?_⟩
    cases mem_singleton.mp member
    exact ⟨rfl, _, completed⟩

/-! ## Order of completion -/

/-- The identifiers of the documents, in the order in which they are completed. -/
def Forest.finishedIds (forest : Forest) : List Text := forest.finished.map (·.documentId)

theorem Forest.finishedIds_loaded (edge : ImportGraphEdge) (node : ImportGraphNode)
    (children rest : Forest) : (Forest.loaded edge node children rest).finishedIds =
      children.finishedIds ++ node.documentId :: rest.finishedIds := by
  simp [finishedIds, finished]

/-- What is completed is among these identifiers. -/
def CompletedIn (completed : RelativePath → Option Text) (finished : List Text) : Prop :=
  ∀ path id, completed path = some id → id ∈ finished

/-- A resolved arc from a document under way leads to a finished one, and any other has its
ends in the order of completion. -/
def OrderedArcs (document : OpenDocument) (finished : List Text)
    (edges : List ImportGraphEdge) : Prop :=
  ∀ arc ∈ resolvedArcs edges,
    (arc.1 = document.documentId ∧ arc.2 ∈ finished) ∨ Before finished arc.2 arc.1

/-- The arcs below a document are in order once it is completed itself. -/
theorem OrderedArcs.complete {parent : OpenDocument} (ordered : OrderedArcs document finished edges)
    (later : List Text) : OrderedArcs parent (finished ++ document.documentId :: later) edges := by
  intro arc member
  rcases ordered arc member with ⟨from_, target⟩ | before
  · rw [from_]
    exact .inr (before_append_cons target)
  · exact .inr (before.append_right _)

theorem OrderedArcs.cons (head : OrderedArcs document finished [edge])
    (tail : OrderedArcs document finished edges) : OrderedArcs document finished (edge :: edges) := by
  intro arc member
  rw [resolvedArcs, ← singleton_append, arcsOf_append] at member
  exact (mem_append.mp member).elim (head arc) (tail arc)

theorem OrderedArcs.append {first second : List ImportGraphEdge}
    (left : OrderedArcs document finished first) (right : OrderedArcs document finished second) :
    OrderedArcs document finished (first ++ second) := by
  intro arc member
  rw [resolvedArcs, arcsOf_append] at member
  exact (mem_append.mp member).elim (left arc) (right arc)

theorem orderedArcs_childEdge {path : RelativePath} {id : Text} (member : id ∈ finished) :
    OrderedArcs document finished [childEdge document reference path (.loaded id)] := by
  intro arc inArcs
  cases mem_singleton.mp inArcs
  exact .inl ⟨rfl, member⟩

theorem CompletedIn.update {completed : RelativePath → Option Text} (within : CompletedIn completed finished)
    (path : RelativePath) (id : Text) :
    CompletedIn (Function.update completed path (some id)) (finished ++ [id]) := by
  intro other otherId found
  by_cases same : other = path
  · subst same
    rw [Function.update_self] at found
    cases found
    exact mem_append_right _ (mem_singleton_self _)
  · rw [Function.update_of_ne same] at found
    exact mem_append_left _ (within other otherId found)

/-- A walk completes the documents of its forest, in the order of `finishedIds`. -/
theorem Walk.ordered (walk : Walk loader document referenceIndex references state forest final)
    (finished : List Text) (completed : CompletedIn state.completed finished) :
    CompletedIn final.completed (finished ++ forest.finishedIds) ∧
      OrderedArcs document (finished ++ forest.finishedIds) forest.edges := by
  have nothing : ∀ document finished, OrderedArcs document finished [] :=
    fun _ _ _ member => by cases member
  induction walk generalizing finished with
  | done => exact ⟨(append_nil finished).symm ▸ completed, nothing _ _⟩
  | halted => exact ⟨(append_nil finished).symm ▸ completed, nothing _ _⟩
  | exhausted => exact ⟨(append_nil finished).symm ▸ completed, nothing _ _⟩
  | leaf _ _ outcome _ ih =>
    rw [afterOutcome_completed] at ih
    obtain ⟨later, ordered⟩ := ih _ completed
    refine ⟨later, .cons (fun arc member => ?_) ordered⟩
    obtain ⟨from_, path, found⟩ := outcome.arcs.2 arc member
    exact .inl ⟨from_, mem_append_left _ (completed path _ found)⟩
  | @unparsed _ _ _ _ _ _ path file _ forest _ _ _ _ _ ih =>
    obtain ⟨later, ordered⟩ := ih _ (completed.update path (idsOf loader path file).documentId)
    rw [append_assoc, singleton_append] at later ordered
    rw [Forest.finishedIds_loaded, nodeOf_documentId]
    exact ⟨later, .cons (orderedArcs_childEdge (by simp)) ordered⟩
  | @parsed _ _ _ _ _ _ _ _ path file children forest _ _ _ _ _ _ childrenIh ih =>
    rw [openState_completed] at childrenIh
    obtain ⟨within, below⟩ := childrenIh _ completed
    obtain ⟨later, ordered⟩ := ih _ (within.update path (idsOf loader path file).documentId)
    rw [append_assoc, append_assoc, singleton_append] at later ordered
    rw [Forest.finishedIds_loaded, nodeOf_documentId]
    refine ⟨later, .cons (orderedArcs_childEdge (by simp)) (.append ?_ ordered)⟩
    rw [← append_assoc]
    exact below.complete _

/-! ## The tree of loaded edges -/

theorem loadedArcs_cons (edge : ImportGraphEdge) (edges : List ImportGraphEdge) :
    loadedArcs (edge :: edges) = loadedArcs [edge] ++ loadedArcs edges := by
  rw [loadedArcs, ← arcsOf_append, singleton_append]

theorem loadedArcs_childEdge (document : OpenDocument) (reference : ImportReference)
    (path : RelativePath) (id : Text) (edges : List ImportGraphEdge) :
    loadedArcs (childEdge document reference path (.loaded id) :: edges) =
      (document.documentId, id) :: loadedArcs edges := rfl

/-- Each document of the forest is entered by one loaded edge, in order. -/
theorem Walk.loadedTargets
    (walk : Walk loader document referenceIndex references state forest final) :
    (loadedArcs forest.edges).map (·.2) = forest.nodes.map (·.documentId) := by
  induction walk with
  | done => rfl
  | halted => rfl
  | exhausted => rfl
  | leaf _ _ outcome _ ih =>
    rw [Forest.edges, loadedArcs_cons, outcome.arcs.1]
    exact ih
  | unparsed _ _ _ _ _ ih =>
    rw [Forest.edges, loadedArcs_childEdge, Forest.nodes, map_cons, map_cons, nodeOf_documentId]
    exact congrArg (_ :: ·) ih
  | parsed _ _ _ _ _ _ childrenIh ih =>
    rw [Forest.edges, loadedArcs_childEdge, Forest.nodes, map_cons, map_cons,
      nodeOf_documentId, map_append, ← childrenIh, ← ih, ← map_append, loadedArcs,
      arcsOf_append]

abbrev LoadedFrom (edges : List ImportGraphEdge) : Text → Text → Prop :=
  Relation.ReflTransGen fun source target => (source, target) ∈ loadedArcs edges

theorem LoadedFrom.mono {edges more : List ImportGraphEdge} {source target : Text}
    (path : LoadedFrom edges source target) (subset : loadedArcs edges ⊆ loadedArcs more) :
    LoadedFrom more source target :=
  Relation.ReflTransGen.mono (fun _ _ arc => subset arc) _ _ path

theorem loadedArcs_subset_left : loadedArcs first ⊆ loadedArcs (first ++ second) := by
  rw [loadedArcs, arcsOf_append]
  exact subset_append_left _ _

theorem loadedArcs_subset_right : loadedArcs second ⊆ loadedArcs (first ++ second) := by
  rw [loadedArcs, arcsOf_append]
  exact subset_append_right _ _

/-- Every document of the forest is reached from the one at its root. -/
theorem Walk.reached (walk : Walk loader document referenceIndex references state forest final) :
    ∀ node ∈ forest.nodes, LoadedFrom forest.edges document.documentId node.documentId := by
  induction walk with
  | done => exact fun _ member => by cases member
  | halted => exact fun _ member => by cases member
  | exhausted => exact fun _ member => by cases member
  | leaf _ _ _ _ ih =>
    exact fun node member => (ih node member).mono (loadedArcs_subset_right [_] _)
  | unparsed _ _ _ _ _ ih =>
    refine forall_mem_cons.mpr ⟨?_, fun node member => ?_⟩
    · rw [nodeOf_documentId, Forest.edges, LoadedFrom, loadedArcs_childEdge]
      exact .single mem_cons_self
    · exact (ih node member).mono (loadedArcs_subset_right [_] _)
  | @parsed document reference _ _ _ _ _ _ path file children forest _ _ _ _ _ _ childrenIh ih =>
    have entered : LoadedFrom (childEdge document ‹_› path
        (.loaded (idsOf loader path file).documentId) :: (children.edges ++ forest.edges))
        document.documentId (idsOf loader path file).documentId := by
      rw [LoadedFrom, loadedArcs_childEdge]
      exact .single mem_cons_self
    refine forall_mem_cons.mpr ⟨?_, fun node member => ?_⟩
    · rw [nodeOf_documentId]
      exact entered
    rcases mem_append.mp member with inner | later
    · exact entered.trans ((childrenIh node inner).mono (Subset.trans
        (loadedArcs_subset_left _ _) (loadedArcs_subset_right [_] _)))
    · exact (ih node later).mono (Subset.trans (loadedArcs_subset_right _ _)
        (loadedArcs_subset_right [_] _))

end Walks

variable {entryPath : RelativePath} {loader : Loader} {final : MutableState}
  {node : ImportGraphNode} {input : LoadImportGraphInput}

/-! ## Whole runs -/

/-- The nodes and edges of a run: the entry and the forest below it, or nothing. -/
structure EntryTree (loader : Loader) (entryPath : RelativePath)
    (file : ReadOnlyRepositoryFile) (forest : Forest) (final : MutableState) : Prop where
  nodes : final.nodes = nodeOf loader entryPath 0 file :: forest.nodes
  edges : final.edges = forest.edges
  targets : (loadedArcs forest.edges).map (·.2) = forest.nodes.map (·.documentId)
  reached : ∀ node ∈ forest.nodes,
    LoadedFrom forest.edges (idsOf loader entryPath file).documentId node.documentId
  ordered : OrderedArcs (documentOf loader entryPath 0 file) forest.finishedIds forest.edges
  fits : forest.Matches (idsOf loader entryPath file).documentId
  branches : ∀ tree ∈ (nodeOf loader entryPath 0 file, forest) :: forest.subtrees,
    tree.2.references <+: tree.1.imports
  importCount : forest.importCount ≤ forest.edges.length + 4096 * loader.limits.maxDepth

/-- What holds behind the visit of an entry. -/
structure Run (loader : Loader) (entryPath : RelativePath) (final : MutableState) :
    Prop where
  tracked : Tracked final
  bounded : Bounded loader.limits final
  slots : final.edges.length = final.edgeSlots
  reads : final.reads.length ≤ final.edgeSlots + 1
  nodeOk : ∀ node ∈ final.nodes, NodeOk loader node
  edgeOk : ∀ edge ∈ final.edges, EdgeOk final.nodes edge
  issueOk : ∀ issue ∈ final.issues, IssueOk final.nodes issue
  shape : (final.nodes = [] ∧ final.edges = []) ∨
    ∃ file forest, EntryTree loader entryPath file forest final

/-- The limits that `validateLimits` lets pass. -/
structure Admissible (limits : ImportGraphLimits) : Prop where
  maxDepth : limits.maxDepth ≤ 32
  maxEdges : 1 ≤ limits.maxEdges ∧ limits.maxEdges ≤ 65536
  maxFanOut : 1 ≤ limits.maxFanOut ∧ limits.maxFanOut ≤ 256
  maxFiles : 1 ≤ limits.maxFiles ∧ limits.maxFiles ≤ 4096
  maxFileBytes : 1 ≤ limits.maxFileBytes ∧ limits.maxFileBytes ≤ 524288
  maxTotalBytes : 1 ≤ limits.maxTotalBytes ∧ limits.maxTotalBytes ≤ 16777216
  maxIssues : 1 ≤ limits.maxIssues ∧ limits.maxIssues ≤ 4096

theorem validateLimit_eq_ok {name : String} {minimum hard limit : Nat} {candidate : Option Int}
    (order : minimum ≤ hard) (run : validateLimit name minimum hard candidate = .ok limit) :
    minimum ≤ limit ∧ limit ≤ hard := by
  unfold validateLimit at run
  split at run
  · cases run
    exact ⟨order, Nat.le_refl _⟩
  · split at run
    · cases run
    · cases run
      omega

theorem validateLimits_admissible {value : Option ImportGraphLimitsInput}
    {limits : ImportGraphLimits} (run : validateLimits value = .ok limits) : Admissible limits := by
  cases value with
  | none =>
    cases run
    constructor <;> decide
  | some value =>
    obtain ⟨maxDepth, depthOk, run⟩ := bind_eq_ok.mp run
    obtain ⟨maxEdges, edgesOk, run⟩ := bind_eq_ok.mp run
    obtain ⟨maxFanOut, fanOutOk, run⟩ := bind_eq_ok.mp run
    obtain ⟨maxFiles, filesOk, run⟩ := bind_eq_ok.mp run
    obtain ⟨maxFileBytes, fileBytesOk, run⟩ := bind_eq_ok.mp run
    obtain ⟨maxTotalBytes, totalBytesOk, run⟩ := bind_eq_ok.mp run
    obtain ⟨maxIssues, issuesOk, run⟩ := bind_eq_ok.mp run
    cases run
    exact ⟨(validateLimit_eq_ok (by decide) depthOk).2, validateLimit_eq_ok (by decide) edgesOk,
      validateLimit_eq_ok (by decide) fanOutOk, validateLimit_eq_ok (by decide) filesOk,
      validateLimit_eq_ok (by decide) fileBytesOk, validateLimit_eq_ok (by decide) totalBytesOk,
      validateLimit_eq_ok (by decide) issuesOk⟩

theorem validateInput_eq_ok {out : Unit} (run : validateInput input = .ok out) :
    isRepositoryRelativePath input.entryPath = true ∧ input.entryPath ≠ repositoryRoot := by
  unfold validateInput at run
  split at run
  · cases run
  · rename_i canonical accepted
    split at run
    · cases run
    · rename_i same
      obtain ⟨eq, notRoot⟩ := not_or.mp same
      rw [not_not.mp eq] at accepted
      exact ⟨isRepositoryRelativePath_eq_true.mpr accepted, notRoot⟩

theorem Visits.run {result : VisitResult × MutableState} (admissible : Admissible loader.limits)
    (canonical : isRepositoryRelativePath entryPath = true)
    (visits : Visits loader initialState entryPath 0 none result) :
    Run loader entryPath result.2 := by
  have aboutEntry : ∀ {known} (state) {code}, (∀ issue ∈ state.issues, IssueOk known issue) →
      ∀ issue ∈ (addIssue loader.limits state code entryPath none (some entryPath)).issues,
        IssueOk known issue := by
    intro known state code ok issue member
    rcases mem_addIssue member with member | rfl
    · exact ok issue member
    · exact ⟨canonical, fun path eq => by cases eq; exact canonical, .inl ⟨rfl, rfl⟩⟩
  have noIssues : ∀ {known}, ∀ issue ∈ initialState.issues, IssueOk known issue :=
    fun _ member => by cases member
  have bounded := bounded_initialState loader.limits
  have room : initialState.nodes.length < loader.limits.maxFiles := admissible.maxFiles.1
  cases visits with
  | failed =>
    exact {
      tracked := tracked_initialState.congr rfl rfl rfl rfl
      bounded := { bounded with issues := length_addIssue_le _ (Nat.zero_le _) }
      slots := rfl
      reads := Nat.le_refl 1
      nodeOk := fun _ member => by cases member
      edgeOk := fun _ member => by cases member
      issueOk := aboutEntry _ noIssues
      shape := .inl ⟨rfl, rfl⟩ }
  | @unparsed file code enters parsed =>
    exact {
      tracked := tracked_initialState.unparsed rfl rfl
      bounded := bounded.unparsedState enters room
      slots := rfl
      reads := Nat.le_refl 1
      nodeOk := forall_mem_singleton.mpr (nodeOk_of_enters enters canonical (Nat.zero_le _))
      edgeOk := fun _ member => by cases member
      issueOk := aboutEntry (enterState ..) noIssues
      shape := .inr ⟨file, .nil, {
        nodes := rfl
        edges := rfl
        targets := rfl
        reached := fun _ member => by cases member
        ordered := fun _ member => by cases member
        fits := trivial
        branches := forall_mem_singleton.mpr nil_prefix
        importCount := Nat.zero_le _ }⟩ }
  | @parsed file imports children middle enters parsed walk =>
    have opened : Tracked (openState loader initialState entryPath 0 file imports) :=
      tracked_initialState.opened rfl rfl
    have nodes : middle.nodes = nodeOf loader entryPath 0 file :: children.nodes := by
      rw [walk.nodes, openState_nodes]
      rfl
    have edges : middle.edges = children.edges := by
      rw [walk.edges, openState_edges]
      rfl
    have slots := walk.edgeSlots
    have reads := walk.reads
    rw [openState_edgeSlots] at slots
    rw [openState_reads] at reads
    have child := Opened.child 0 canonical parsed
      (walk.subset_nodes (mem_openState_nodes ..))
    have ordered := (walk.ordered [] (by
      rw [openState_completed]
      exact fun _ _ found => by cases found)).2
    exact {
      tracked := (walk.tracked opened).closed (walk.subset_nodes (mem_openState_nodes ..))
      bounded := (walk.bounded (bounded.openState enters room)).closeDocument
      slots := by
        change middle.edges.length = middle.edgeSlots
        rw [edges, slots]
        exact (Nat.zero_add _).symm
      reads := by
        change middle.reads.length ≤ middle.edgeSlots + 1
        simp only [initialState, nil_append, length_singleton] at slots reads
        omega
      nodeOk := by
        change ∀ node ∈ middle.nodes, _
        rw [nodes]
        exact forall_mem_cons.mpr ⟨nodeOk_of_enters enters canonical (Nat.zero_le _),
          walk.nodeOk canonical⟩
      edgeOk := by
        change ∀ edge ∈ middle.edges, EdgeOk middle.nodes edge
        rw [edges]
        exact walk.edgeOk opened (Subset.refl _) child
      issueOk := walk.issueOk (Subset.refl _) child (child.reportFanOut_issueOk noIssues)
      shape := .inr ⟨file, children, {
        nodes := nodes
        edges := edges
        targets := walk.loadedTargets
        reached := walk.reached
        ordered := ordered
        fits := walk.matches
        branches := forall_mem_cons.mpr
          ⟨by rw [nodeOf_imports_of_ok _ parsed]; exact walk.branches.1, walk.branches.2⟩
        importCount := walk.importCount.2 }⟩ }

/-- A completed load is a run under admissible limits. -/
theorem loadImportGraph_eq_ok
    {extractMarkdownContent : (sourceId text : Text) → Option MarkdownExtractionResult} {limitsValue : Option ImportGraphLimitsInput}
    {result : ImportGraphResult}
    (run : loadImportGraph extractMarkdownContent input limitsValue = .ok result) :
    isRepositoryRelativePath input.entryPath = true ∧ input.entryPath ≠ repositoryRoot ∧
      ∃ loader final, Admissible loader.limits ∧ validateLimits limitsValue = .ok loader.limits ∧
        loader.readFile = input.repository.readFile ∧
        loader.extractMarkdownContent = extractMarkdownContent ∧
        loader.syntaxName = input.syntaxName ∧
        (∃ visited, Visits loader initialState input.entryPath 0 none (visited, final)) ∧
        Run loader input.entryPath final ∧
        result = resultOf input.syntaxName input.entryPath final ∧
        loadAndTrace extractMarkdownContent input limitsValue = .ok (result, final.reads) := by
  obtain ⟨⟨traced, reads⟩, trace, rfl⟩ := eq_ok_of_map run
  have whole := trace
  obtain ⟨_, entry, trace⟩ := bind_eq_ok.mp trace
  obtain ⟨limits, limited, trace⟩ := bind_eq_ok.mp trace
  obtain ⟨canonical, notRoot⟩ := validateInput_eq_ok entry
  have admissible := validateLimits_admissible limited
  cases trace
  let loader : Loader := {
    limits, readFile := input.repository.readFile, extractMarkdownContent
    syntaxName := input.syntaxName }
  have visits : Visits loader initialState input.entryPath 0 none _ :=
    visit_visits limits.maxDepth initialState input.entryPath 0 none
    (Nat.zero_add _)
  exact ⟨canonical, notRoot, loader, finalState loader input.entryPath, admissible, limited, rfl,
    rfl, rfl, ⟨_, visits⟩, visits.run admissible canonical, rfl, whole⟩

/-! ## Accounts -/

def InsideRoot (path : RelativePath) : Prop :=
  isRepositoryRelativePath path = true ∧ js ".." ∉ pathSegments path

theorem insideRoot_of_canonical {path : RelativePath}
    (canonical : isRepositoryRelativePath path = true) : InsideRoot path := by
  refine ⟨canonical, fun parent => ?_⟩
  by_cases root : path = repositoryRoot
  · subst root
    revert parent
    decide
  · exact (canonical_of_mem_pathSegments canonical root _ parent).ne_parent rfl

/-- What a result and the paths read for it keep to. -/
structure Accounted (limits : ImportGraphLimits) (result : ImportGraphResult)
    (reads : List RelativePath) : Prop where
  paths : (result.nodes.map (·.path)).Nodup
  depth : ∀ node ∈ result.nodes, node.depth ≤ limits.maxDepth
  files : result.nodes.length ≤ limits.maxFiles
  edges : result.edges.length ≤ limits.maxEdges
  bytes : result.usage.totalBytes = (result.nodes.map (·.byteLength)).sum
  totalBytes : result.usage.totalBytes ≤ limits.maxTotalBytes
  edgeTargets : ∀ edge ∈ result.edges, ∀ path ∈ edge.targetPath, InsideRoot path
  issueTargets : ∀ issue ∈ result.issues, ∀ path ∈ issue.targetPath, InsideRoot path
  reads : reads.length ≤ limits.maxEdges + 1

/-- What the identifiers in a result make of it: a tree of loaded edges at the entry, or nothing,
and no cycle through loaded documents. -/
structure Rooted (result : ImportGraphResult) : Prop where
  documentIds : (result.nodes.map (·.documentId)).Nodup
  sourceIds : (result.nodes.map (·.sourceId)).Nodup
  tree : (result.nodes = [] ∧ result.edges = []) ∨
    ∃ entry ∈ result.nodes.head?, entry.path = result.entryPath ∧ entry.depth = 0 ∧
      IsRootedTree entry.documentId (result.nodes.map (·.documentId)) (loadedArcs result.edges)
  acyclic : Acyclic (resolvedArcs result.edges)

/-- What is hashed for the identities of the documents in a result. -/
def identityInputs (result : ImportGraphResult) : List (List UInt8) :=
  result.nodes.map fun node => identityInput node.path result.syntaxName node.sha256

theorem Run.accounted (run : Run loader entryPath final) :
    Accounted loader.limits (resultOf loader.syntaxName entryPath final) final.reads where
  paths := run.tracked.nodup
  depth := fun node member => (run.nodeOk node member).depth
  files := run.bounded.files
  edges := by
    change final.edges.length ≤ _
    rw [run.slots]
    exact run.bounded.edgeSlots
  bytes := run.bounded.bytes
  totalBytes := run.bounded.totalBytes
  edgeTargets := fun edge member path target => by
    obtain ⟨owner, ownerMember, -, -, -, refers⟩ := (run.edgeOk edge member).owner
    exact insideRoot_of_canonical (resolveTarget_canonical (run.nodeOk owner ownerMember).canonical
      (refers path target).resolved).1
  issueTargets := fun issue member path target =>
    insideRoot_of_canonical ((run.issueOk issue member).targetPath path target)
  reads := by
    have reads := run.reads
    have slots := run.bounded.edgeSlots
    omega

/-- Nodes with the same identity are the same, unless two of the inputs hashed collide. -/
theorem Run.eq_of_identity (run : Run loader entryPath final)
    (free : CollisionFree (identityInputs (resultOf loader.syntaxName entryPath final)))
    {node other : ImportGraphNode} (member : node ∈ final.nodes) (otherMember : other ∈ final.nodes)
    (same : sha256Hex (identityInput node.path loader.syntaxName node.sha256) =
      sha256Hex (identityInput other.path loader.syntaxName other.sha256)) :
    node = other := by
  have inputs := free _ (mem_map_of_mem member) _ (mem_map_of_mem otherMember) same
  exact inj_on_of_nodup_map run.tracked.nodup member otherMember
    (identityInput_inj (run.nodeOk node member).canonical (run.nodeOk other otherMember).canonical
      inputs)

theorem NodeOk.documentId (ok : NodeOk loader node) : node.documentId = js "document:" ++
      sha256Hex (identityInput node.path loader.syntaxName node.sha256) := by
  obtain ⟨file, -, -, eq⟩ := ok.file
  rw [eq, nodeOf_documentId, nodeOf_path, nodeOf_sha256]
  rfl

theorem NodeOk.sourceId (ok : NodeOk loader node) : node.sourceId = js "source:" ++
      sha256Hex (identityInput node.path loader.syntaxName node.sha256) := by
  obtain ⟨file, -, -, eq⟩ := ok.file
  rw [eq, nodeOf_sourceId, nodeOf_path, nodeOf_sha256]
  rfl

theorem Run.rooted (run : Run loader entryPath final)
    (free : CollisionFree (identityInputs (resultOf loader.syntaxName entryPath final))) :
    Rooted (resultOf loader.syntaxName entryPath final) := by
  have nodes : final.nodes.Nodup := run.tracked.nodup.of_map
  have documentIds : (final.nodes.map (·.documentId)).Nodup := by
    refine nodes.map_on fun node member other otherMember same => ?_
    rw [(run.nodeOk node member).documentId, (run.nodeOk other otherMember).documentId] at same
    exact run.eq_of_identity free member otherMember (append_cancel_left same)
  have sourceIds : (final.nodes.map (·.sourceId)).Nodup := by
    refine nodes.map_on fun node member other otherMember same => ?_
    rw [(run.nodeOk node member).sourceId, (run.nodeOk other otherMember).sourceId] at same
    exact run.eq_of_identity free member otherMember (append_cancel_left same)
  rcases run.shape with ⟨noNodes, noEdges⟩ | ⟨file, forest, tree⟩
  · refine ⟨documentIds, sourceIds, .inl ⟨noNodes, noEdges⟩, ?_⟩
    change Acyclic (resolvedArcs final.edges)
    rw [noEdges]
    exact acyclic_of_before nodup_nil fun _ member => by cases member
  · have entry : (nodeOf loader entryPath 0 file).documentId = (idsOf loader entryPath file).documentId :=
      nodeOf_documentId ..
    refine ⟨documentIds, sourceIds, .inr ⟨nodeOf loader entryPath 0 file, ?_, nodeOf_path ..,
      nodeOf_depth .., documentIds, ?_, ?_, ?_⟩, ?_⟩
    · change _ ∈ final.nodes.head?
      rw [tree.nodes]
      exact rfl
    · change (_ :: (loadedArcs final.edges).map _).Perm (final.nodes.map _)
      rw [tree.edges, tree.targets, tree.nodes]
      exact Perm.refl _
    · intro arc member
      obtain ⟨edge, edgeMember, selected⟩ := mem_filterMap.mp member
      obtain ⟨owner, ownerMember, from_, -⟩ := (run.edgeOk edge edgeMember).owner
      split at selected
      · obtain ⟨target, -, rfl⟩ := Option.map_eq_some_iff.mp selected
        exact mem_map.mpr ⟨owner, ownerMember, from_.symm⟩
      · cases selected
    · change ∀ vertex ∈ final.nodes.map _, LoadedFrom final.edges _ _
      rw [tree.nodes, tree.edges, entry, map_cons]
      refine forall_mem_cons.mpr ⟨by rw [entry], fun vertex member => ?_⟩
      obtain ⟨node, inForest, rfl⟩ := mem_map.mp member
      exact tree.reached node inForest
    · have order : (forest.finishedIds ++ [(idsOf loader entryPath file).documentId]).Nodup := by
        rw [nodup_append_comm, singleton_append, ← entry]
        refine ((forest.finished_perm.map (·.documentId)).cons _).nodup_iff.mpr ?_
        rw [tree.nodes] at documentIds
        exact documentIds
      change Acyclic (resolvedArcs final.edges)
      rw [tree.edges]
      exact acyclic_of_before order fun arc member => by
        rcases tree.ordered arc member with ⟨from_, target⟩ | before
        · rw [from_]
          exact before_append_cons target
        · exact before.append_right _

/-- Every result is accounted for under its limits, and its identifiers make a rooted tree and
an acyclic graph of it as far as the documents' identities do not collide. -/
theorem loadImportGraph_accounted
    (extractMarkdownContent : (sourceId text : Text) → Option MarkdownExtractionResult)
    (input : LoadImportGraphInput) (limitsValue : Option ImportGraphLimitsInput)
    (result : ImportGraphResult)
    (run : loadImportGraph extractMarkdownContent input limitsValue = .ok result) :
    ∃ limits reads, validateLimits limitsValue = .ok limits ∧
      loadAndTrace extractMarkdownContent input limitsValue = .ok (result, reads) ∧
      Accounted limits result reads ∧
      (CollisionFree (identityInputs result) → Rooted result) := by
  obtain ⟨-, -, loader, final, -, limited, -, -, syntaxName, -, whole, rfl, trace⟩ :=
    loadImportGraph_eq_ok run
  rw [← syntaxName] at trace ⊢
  exact ⟨loader.limits, final.reads, limited, trace, whole.accounted, whole.rooted⟩

/-- A Markdown parse without any regions. -/
def plainMarkdown (sourceId text : Text) : Option MarkdownExtractionResult :=
  some {
    rootNodeId := js "root"
    nodes := [⟨js "root", .root, ⟨sourceId, ⟨0, 0, 0, 0⟩, ⟨0, text.length, 0, 0⟩⟩, []⟩] }

/-- Two documents that import each other, the second one also by another name. -/
def importCycle : LoadImportGraphInput where
  repository := {
    inspect := fun _ => .error .other
    readFile := fun path =>
      let file := fun inode text =>
        .ok ⟨⟨js "1", js inode⟩, 0, path, 0, Utf8.encode (js text)⟩
      if path = js "a.md" then file "1" "@b.md @missing.md @./b.md"
      else if path = js "b.md" then file "2" "@a.md @alias.md"
      else if path = js "alias.md" then file "2" ""
      else .error .other }
  entryPath := js "a.md"
  syntaxName := .claudeCode

/-- Every reference of the cycle is accounted for. -/
theorem loadImportGraph_accounted_cycle :
    ∃ result, loadImportGraph plainMarkdown importCycle none = .ok result ∧
      result.edges.map (·.state) = [.loaded, .cycle, .cycle, .unavailable, .alreadyLoaded] ∧
      Rooted result ∧ ∃ reads, Accounted defaultImportGraphLimits result reads := by
  have run : (loadImportGraph plainMarkdown importCycle none).map (fun result =>
      (result.edges.map (·.state), decide (CollisionFree (identityInputs result)))) =
        .ok ([.loaded, .cycle, .cycle, .unavailable, .alreadyLoaded], true) := by decide +kernel
  obtain ⟨result, run, shape⟩ := eq_ok_of_map run
  obtain ⟨states, free⟩ := Prod.mk.inj shape
  obtain ⟨limits, reads, limited, -, accounted, rooted⟩ :=
    loadImportGraph_accounted plainMarkdown importCycle none result run
  cases limited
  exact ⟨result, run, states, rooted (of_decide_eq_true free), reads, accounted⟩

end AgentContextLint.ImportGraph
