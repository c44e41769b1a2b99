import AgentContextLint.Evidence.ImportGraphRuns
import AgentContextLint.Evidence.ImportTargets
import AgentContextLint.Lib.Arcs

/-!
# Invariants of the import graph loader

`Tracked` and `Bounded` hold of the state at every reference of every document; `NodeOk`,
`EdgeOk` and `IssueOk` hold of whatever a walk adds. `Walk.ordered` is the argument against
cycles: an edge to a document that is not active leads to one finished earlier.
-/

namespace AgentContextLint.ImportGraph

open Utf16 RepositoryPath List
open Function (update_of_ne update_self)

/-! ## Nodes -/

section NodeFields

variable (loader : Loader) (path : RelativePath) (depth : Nat) (file : ReadOnlyRepositoryFile)

@[simp] theorem nodeOf_path : (nodeOf loader path depth file).path = path := by
  unfold nodeOf
  split <;> rfl

@[simp] theorem nodeOf_depth : (nodeOf loader path depth file).depth = depth := by
  unfold nodeOf
  split <;> rfl

@[simp] theorem nodeOf_documentId :
    (nodeOf loader path depth file).documentId = (idsOf loader path file).documentId := by
  unfold nodeOf
  split <;> rfl

@[simp] theorem nodeOf_sourceId :
    (nodeOf loader path depth file).sourceId = (idsOf loader path file).sourceId := by
  unfold nodeOf
  split <;> rfl

@[simp] theorem nodeOf_sha256 :
    (nodeOf loader path depth file).sha256 = Sha256.sha256Hex file.bytes := by
  unfold nodeOf
  split <;> rfl

@[simp] theorem nodeOf_byteLength :
    (nodeOf loader path depth file).byteLength = file.bytes.length := by
  unfold nodeOf
  split <;> rfl

variable {loader path file}

theorem nodeOf_imports_of_ok {imports : List ImportReference}
    (parsed : parseDocument loader (idsOf loader path file) file.bytes = .ok imports) :
    (nodeOf loader path depth file).imports = imports := by
  rw [nodeOf, parsed]
  rfl

theorem nodeOf_imports_of_error {code : ImportGraphIssueCode}
    (parsed : parseDocument loader (idsOf loader path file) file.bytes = .error code) :
    (nodeOf loader path depth file).imports = [] := by
  rw [nodeOf, parsed]
  rfl

end NodeFields

variable {loader : Loader} {file : ReadOnlyRepositoryFile} {state : MutableState}
  {targetPath : RelativePath} {reference : ImportReference}
  {document : OpenDocument} {node : ImportGraphNode}

/-- A node is that of a readable file at a canonical path, no deeper than allowed. -/
structure NodeOk (loader : Loader) (node : ImportGraphNode) : Prop where
  canonical : isRepositoryRelativePath node.path = true
  depth : node.depth ≤ loader.limits.maxDepth
  file : ∃ file, loader.readFile node.path = .ok file ∧
    file.bytes.length ≤ loader.limits.maxFileBytes ∧
    node = nodeOf loader node.path node.depth file

/-- The references of a document are what the lexer makes of its text. -/
theorem parseDocument_eq_ok {ids : StableIds} {bytes : List UInt8}
    {imports : List ImportReference} (parsed : parseDocument loader ids bytes = .ok imports) :
    ∃ text, Utf8.decode bytes = some text ∧
      ImportLexer.LexedReferences ⟨ids.documentId, ids.sourceId, loader.syntaxName, text⟩ imports := by
  unfold parseDocument at parsed
  split at parsed
  · cases parsed
  rename_i text decoded
  split at parsed
  · cases parsed
  rename_i lexed
  cases parsed
  exact ⟨text, decoded, ImportLexer.lexImportReferences_eq_ok lexed⟩

/-- The references of a node are what the lexer makes of the text of its file. -/
theorem NodeOk.read (ok : NodeOk loader node) :
    node.imports = [] ∨ ∃ file text, loader.readFile node.path = .ok file ∧
      Utf8.decode file.bytes = some text ∧ text.length ≤ 2 * loader.limits.maxFileBytes ∧
      ImportLexer.LexedReferences ⟨node.documentId, node.sourceId, loader.syntaxName, text⟩
        node.imports := by
  obtain ⟨file, read, fileBytes, eq⟩ := ok.file
  cases parsed : parseDocument loader (idsOf loader node.path file) file.bytes with
  | error code =>
    rw [eq, nodeOf_imports_of_error _ parsed]
    exact .inl rfl
  | ok imports =>
    obtain ⟨text, decoded, lexed⟩ := parseDocument_eq_ok parsed
    have units := Utf8.length_decode_le decoded
    rw [eq, nodeOf_imports_of_ok _ parsed, nodeOf_documentId, nodeOf_sourceId, nodeOf_path]
    exact .inr ⟨file, text, read, decoded, by omega, lexed⟩

theorem NodeOk.lexed (ok : NodeOk loader node) :
    ∃ input : ImportLexerInput, input.documentId = node.documentId ∧
      input.sourceId = node.sourceId ∧ input.text.length ≤ 2 * loader.limits.maxFileBytes ∧
      ImportLexer.LexedReferences input node.imports := by
  rcases ok.read with none | ⟨file, text, -, -, units, lexed⟩
  · rw [none]
    exact ⟨⟨node.documentId, node.sourceId, loader.syntaxName, []⟩, rfl, rfl, Nat.zero_le _, .nil⟩
  · exact ⟨_, rfl, rfl, units, lexed⟩

theorem nodeOk_of_enters {path : RelativePath} {depth : Nat}
    (enters : Enters loader state path file) (canonical : isRepositoryRelativePath path = true)
    (allowed : depth ≤ loader.limits.maxDepth) : NodeOk loader (nodeOf loader path depth file) where
  canonical := by rwa [nodeOf_path]
  depth := by rwa [nodeOf_depth]
  file := by
    rw [nodeOf_path, nodeOf_depth]
    exact ⟨file, enters.read, enters.fileBytes, rfl⟩

theorem Descends.taken (descends : Descends loader document state reference targetPath file) :
    Enters loader (takeSlot state) targetPath file :=
  ⟨descends.read, descends.fresh, descends.fileBytes, descends.totalBytes⟩

theorem Descends.canonical (descends : Descends loader document state reference targetPath file)
    (canonical : isRepositoryRelativePath document.path = true) :
    isRepositoryRelativePath targetPath = true :=
  (resolveTarget_canonical canonical descends.refers.resolved).1

section Walks

variable {loader : Loader} {document : OpenDocument} {referenceIndex : Nat}
  {references : List ImportReference} {state final : MutableState} {forest : Forest}

theorem Walk.nodeOk (walk : Walk loader document referenceIndex references state forest final)
    (canonical : isRepositoryRelativePath document.path = true) :
    ∀ node ∈ forest.nodes, NodeOk loader node := by
  induction walk with
  | done => exact fun _ member => by cases member
  | halted => exact fun _ member => by cases member
  | exhausted => exact fun _ member => by cases member
  | leaf _ _ _ _ ih => exact ih canonical
  | unparsed _ _ descends _ _ ih =>
    have target := descends.canonical canonical
    exact forall_mem_cons.mpr
      ⟨nodeOk_of_enters descends.toEnters target descends.depth, ih canonical⟩
  | parsed _ _ descends _ _ _ childrenIh ih =>
    have target := descends.canonical canonical
    refine forall_mem_cons.mpr
      ⟨nodeOk_of_enters descends.toEnters target descends.depth, fun node member => ?_⟩
    rcases mem_append.mp member with member | member
    · exact childrenIh target node member
    · exact ih canonical node member

/-! ## The maps and the nodes -/

def Names (map : RelativePath → Option Text) (nodes : List ImportGraphNode) : Prop :=
  ∀ path id, map path = some id → ∃ node ∈ nodes, node.path = path ∧ node.documentId = id

def NamesIdentities (map : Text → Option Text) (nodes : List ImportGraphNode) : Prop :=
  ∀ identity id, map identity = some id → ∃ node ∈ nodes, node.documentId = id

/-- Every node is active or completed, and the maps name nodes. -/
structure Tracked (state : MutableState) : Prop where
  nodup : (state.nodes.map (·.path)).Nodup
  located : ∀ node ∈ state.nodes,
    state.active node.path ≠ none ∨ state.completed node.path ≠ none
  active : Names state.active state.nodes
  identities : NamesIdentities state.activeIdentities state.nodes
  completed : Names state.completed state.nodes

section Maps

variable {map : RelativePath → Option Text} {nodes more : List ImportGraphNode}
  {map : Text → Option Text} {node : ImportGraphNode}

theorem Names.mono (names : Names map nodes) (subset : nodes ⊆ more) : Names map more :=
  fun path id found =>
    let ⟨node, member, same⟩ := names path id found
    ⟨node, subset member, same⟩

theorem NamesIdentities.mono
    (names : NamesIdentities map nodes) (subset : nodes ⊆ more) : NamesIdentities map more :=
  fun identity id found =>
    let ⟨node, member, same⟩ := names identity id found
    ⟨node, subset member, same⟩

theorem Names.update (names : Names map nodes) (member : node ∈ nodes) :
    Names (Function.update map node.path (some node.documentId)) nodes := by
  intro path id found
  by_cases same : path = node.path
  · subst same
    rw [update_self] at found
    cases found
    exact ⟨node, member, rfl, rfl⟩
  · rw [update_of_ne same] at found
    exact names path id found

theorem Names.remove (names : Names map nodes) (gone : RelativePath) :
    Names (Function.update map gone none) nodes := by
  intro path id found
  by_cases same : path = gone
  · subst same
    rw [update_self] at found
    cases found
  · rw [update_of_ne same] at found
    exact names path id found

theorem NamesIdentities.update
    (names : NamesIdentities map nodes) (member : node ∈ nodes) (identity : Text) :
    NamesIdentities (Function.update map identity (some node.documentId)) nodes := by
  intro other id found
  by_cases same : other = identity
  · subst same
    rw [update_self] at found
    cases found
    exact ⟨node, member, rfl⟩
  · rw [update_of_ne same] at found
    exact names other id found

theorem NamesIdentities.remove (names : NamesIdentities map nodes)
    (gone : Text) : NamesIdentities (Function.update map gone none) nodes := by
  intro other id found
  by_cases same : other = gone
  · subst same
    rw [update_self] at found
    cases found
  · rw [update_of_ne same] at found
    exact names other id found

end Maps

variable {reference : ImportReference}

theorem tracked_initialState : Tracked initialState where
  nodup := nodup_nil
  located := fun _ member => by cases member
  active := fun _ _ eq => by cases eq
  identities := fun _ _ eq => by cases eq
  completed := fun _ _ eq => by cases eq

theorem Tracked.congr {other : MutableState} (tracked : Tracked state)
    (nodes : other.nodes = state.nodes) (active : other.active = state.active)
    (identities : other.activeIdentities = state.activeIdentities)
    (completed : other.completed = state.completed) : Tracked other where
  nodup := by
    rw [nodes]
    exact tracked.nodup
  located := by
    rw [nodes, active, completed]
    exact tracked.located
  active := by
    rw [nodes, active]
    exact tracked.active
  identities := by
    rw [nodes, identities]
    exact tracked.identities
  completed := by
    rw [nodes, completed]
    exact tracked.completed

theorem Tracked.takeSlot (tracked : Tracked state) : Tracked (takeSlot state) :=
  tracked.congr rfl rfl rfl rfl

variable {position : Nat}

theorem Tracked.addLoadedEdge {path : RelativePath} {file : ReadOnlyRepositoryFile}
    (tracked : Tracked state) :
    Tracked (addLoadedEdge loader document reference path file position state) :=
  tracked.congr rfl rfl rfl rfl

variable {edge : ImportGraphEdge} {issue : Option (ImportGraphIssueCode × Option RelativePath)}
  {reads : List RelativePath}

theorem Tracked.afterOutcome (tracked : Tracked state) :
    Tracked (afterOutcome loader.limits document reference edge issue reads state) :=
  tracked.congr (afterOutcome_nodes ..) (afterOutcome_active ..)
    (afterOutcome_activeIdentities ..) (afterOutcome_completed ..)

theorem Tracked.nodup_append {node : ImportGraphNode} (tracked : Tracked state)
    (inactive : state.active node.path = none) (incomplete : state.completed node.path = none) :
    ((state.nodes ++ [node]).map (·.path)).Nodup := by
  rw [map_append, map_singleton, nodup_append_comm, singleton_append, nodup_cons]
  refine ⟨fun known => ?_, tracked.nodup⟩
  obtain ⟨other, member, same⟩ := mem_map.mp known
  rcases tracked.located other member with active | completed
  · exact active (same ▸ inactive)
  · exact completed (same ▸ incomplete)

theorem ne_none_update {map : RelativePath → Option Text} {path other : RelativePath} {id : Text}
    (found : map other ≠ none) : Function.update map path (some id) other ≠ none := by
  by_cases same : other = path
  · rw [same, update_self]
    exact Option.some_ne_none id
  · rwa [update_of_ne same]

section Entering

variable {path : RelativePath} {depth : Nat} {file : ReadOnlyRepositoryFile}

theorem Tracked.unparsed {parent : Option Parent} {code : ImportGraphIssueCode}
    (tracked : Tracked state) (inactive : state.active path = none)
    (incomplete : state.completed path = none) :
    Tracked (unparsedState loader state path depth file parent code) where
  nodup := tracked.nodup_append (by rwa [nodeOf_path]) (by rwa [nodeOf_path])
  located := fun node member => by
    rcases mem_append.mp member with member | member
    · exact (tracked.located node member).imp id ne_none_update
    · cases mem_singleton.mp member
      refine .inr ?_
      change Function.update state.completed path (some _) _ ≠ none
      rw [nodeOf_path, update_self]
      exact Option.some_ne_none _
  active := tracked.active.mono (subset_append_left _ _)
  identities := tracked.identities.mono (subset_append_left _ _)
  completed := by
    have names := (tracked.completed.mono (subset_append_left _ _)).update
      (mem_append_right state.nodes (mem_singleton_self (nodeOf loader path depth file)))
    rwa [nodeOf_path, nodeOf_documentId] at names

theorem Tracked.opened {imports : List ImportReference} (tracked : Tracked state)
    (inactive : state.active path = none) (incomplete : state.completed path = none) :
    Tracked (openState loader state path depth file imports) := by
  have member := mem_append_right state.nodes
    (mem_singleton_self (nodeOf loader path depth file))
  constructor
  case nodup =>
    rw [openState_nodes]
    exact tracked.nodup_append (by rwa [nodeOf_path]) (by rwa [nodeOf_path])
  case located =>
    rw [openState_nodes, openState_active, openState_completed]
    intro node member
    rcases mem_append.mp member with member | member
    · exact (tracked.located node member).imp ne_none_update id
    · cases mem_singleton.mp member
      rw [nodeOf_path, update_self]
      exact .inl (Option.some_ne_none _)
  case active =>
    rw [openState_nodes, openState_active]
    have names := (tracked.active.mono (subset_append_left _ _)).update member
    rwa [nodeOf_path, nodeOf_documentId] at names
  case identities =>
    rw [openState_nodes, openState_activeIdentities]
    have names := (tracked.identities.mono (subset_append_left _ _)).update member
      (identityKey file.identity)
    rwa [nodeOf_documentId] at names
  case completed =>
    rw [openState_nodes, openState_completed]
    exact tracked.completed.mono (subset_append_left _ _)

theorem Tracked.closed (tracked : Tracked state)
    (member : nodeOf loader path depth file ∈ state.nodes) :
    Tracked (closeDocument (documentOf loader path depth file) state) where
  nodup := tracked.nodup
  located := fun other otherMember => by
    change Function.update state.active path none other.path ≠ none ∨
      Function.update state.completed path (some _) other.path ≠ none
    by_cases same : other.path = path
    · rw [same, update_self, update_self]
      exact .inr (Option.some_ne_none _)
    · rw [update_of_ne same, update_of_ne same]
      exact tracked.located other otherMember
  active := tracked.active.remove _
  identities := tracked.identities.remove _
  completed := by
    have names := tracked.completed.update member
    rwa [nodeOf_path, nodeOf_documentId] at names

end Entering

theorem Walk.tracked (walk : Walk loader document referenceIndex references state forest final)
    (tracked : Tracked state) : Tracked final := by
  induction walk with
  | done => exact tracked
  | halted => exact tracked
  | exhausted => exact tracked.congr rfl rfl rfl rfl
  | leaf _ _ _ _ ih =>
    exact ih tracked.afterOutcome
  | unparsed _ _ descends _ _ ih =>
    exact ih (tracked.takeSlot.unparsed descends.inactive descends.incomplete).addLoadedEdge
  | parsed _ _ descends _ children _ childrenIh ih =>
    have middle := childrenIh (tracked.takeSlot.opened descends.inactive descends.incomplete)
    exact ih (middle.closed (children.subset_nodes (mem_openState_nodes ..))).addLoadedEdge

/-! ## Counts -/

/-- The counters are within the limits, and the bytes are those of the nodes. -/
structure Bounded (limits : ImportGraphLimits) (state : MutableState) : Prop where
  edgeSlots : state.edgeSlots ≤ limits.maxEdges
  files : state.nodes.length ≤ limits.maxFiles
  bytes : state.totalBytes = (state.nodes.map (·.byteLength)).sum
  totalBytes : state.totalBytes ≤ limits.maxTotalBytes
  issues : state.issues.length ≤ limits.maxIssues

theorem bounded_initialState (limits : ImportGraphLimits) : Bounded limits initialState :=
  ⟨Nat.zero_le _, Nat.zero_le _, rfl, Nat.zero_le _, Nat.zero_le _⟩

variable {limits : ImportGraphLimits} {code : ImportGraphIssueCode} (state) in
theorem length_addIssue_le {path : RelativePath} {reference : Option ImportReference}
    {targetPath : Option RelativePath} (few : state.issues.length ≤ limits.maxIssues) :
    (addIssue limits state code path reference targetPath).issues.length ≤ limits.maxIssues := by
  simp only [addIssue]
  split
  · exact few
  · rw [length_append, length_singleton]
    omega

variable {imports : List ImportReference}

theorem length_reportFanOut_le (few : state.issues.length ≤ limits.maxIssues) :
    (reportFanOut limits document imports state).issues.length ≤ limits.maxIssues := by
  unfold reportFanOut
  split
  · exact length_addIssue_le _ few
  · exact few

theorem length_afterOutcome_issues_le {reference : ImportReference}
    (few : state.issues.length ≤ limits.maxIssues) :
    (afterOutcome limits document reference edge issue reads state).issues.length ≤
      limits.maxIssues := by
  cases issue with
  | none => exact few
  | some issue => exact length_addIssue_le (takeSlot state) few

theorem Bounded.afterOutcome {reference : ImportReference} (bounded : Bounded limits state)
    (slot : state.edgeSlots < limits.maxEdges) :
    Bounded limits (afterOutcome limits document reference edge issue reads state) where
  edgeSlots := by
    rw [afterOutcome_edgeSlots]
    exact slot
  files := by
    rw [afterOutcome_nodes]
    exact bounded.files
  bytes := by
    rw [afterOutcome_nodes, afterOutcome_totalBytes]
    exact bounded.bytes
  totalBytes := by
    rw [afterOutcome_totalBytes]
    exact bounded.totalBytes
  issues := length_afterOutcome_issues_le bounded.issues

theorem Bounded.takeSlot (bounded : Bounded limits state) (slot : state.edgeSlots < limits.maxEdges) :
    Bounded limits (takeSlot state) :=
  { bounded with edgeSlots := slot }

theorem Bounded.enterState {path : RelativePath} (depth : Nat)
    {file : ReadOnlyRepositoryFile} (bounded : Bounded loader.limits state)
    (enters : Enters loader state path file) (room : state.nodes.length < loader.limits.maxFiles) :
    Bounded loader.limits (enterState loader state path depth file) where
  edgeSlots := bounded.edgeSlots
  files := by
    change (state.nodes ++ [_]).length ≤ _
    rwa [length_append, length_singleton]
  bytes := by
    change state.totalBytes + file.bytes.length = ((state.nodes ++ [_]).map _).sum
    rw [map_append, sum_append, ← bounded.bytes]
    simp
  totalBytes := enters.totalBytes
  issues := bounded.issues

theorem Bounded.openState {path : RelativePath} {depth : Nat}
    {file : ReadOnlyRepositoryFile} (bounded : Bounded loader.limits state)
    (enters : Enters loader state path file) (room : state.nodes.length < loader.limits.maxFiles) :
    Bounded loader.limits (openState loader state path depth file imports) := by
  have entered := bounded.enterState depth enters room
  rw [openState_eq]
  exact { entered with issues := length_reportFanOut_le bounded.issues }

theorem Bounded.unparsedState {path : RelativePath} {depth : Nat}
    {file : ReadOnlyRepositoryFile} {parent : Option Parent} (bounded : Bounded loader.limits state)
    (enters : Enters loader state path file) (room : state.nodes.length < loader.limits.maxFiles) :
    Bounded loader.limits (unparsedState loader state path depth file parent code) := by
  have entered := bounded.enterState depth enters room
  exact { entered with issues := length_addIssue_le _ entered.issues }

theorem Bounded.closeDocument (bounded : Bounded limits state) :
    Bounded limits (closeDocument document state) := { bounded with }

theorem Bounded.addLoadedEdge {reference : ImportReference} {path : RelativePath}
    {file : ReadOnlyRepositoryFile} (bounded : Bounded limits state) :
    Bounded limits (addLoadedEdge loader document reference path file position state) :=
  { bounded with }

theorem Walk.bounded (walk : Walk loader document referenceIndex references state forest final)
    (bounded : Bounded loader.limits state) : Bounded loader.limits final := by
  induction walk with
  | done => exact bounded
  | halted => exact bounded
  | exhausted => exact { bounded with issues := length_addIssue_le _ bounded.issues }
  | leaf _ slot _ _ ih => exact ih (bounded.afterOutcome slot)
  | unparsed _ slot descends _ _ ih =>
    exact ih ((bounded.takeSlot slot).unparsedState descends.taken descends.room).addLoadedEdge
  | parsed _ slot descends _ _ _ childrenIh ih =>
    have middle := childrenIh ((bounded.takeSlot slot).openState descends.taken descends.room)
    exact ih middle.closeDocument.addLoadedEdge

/-! ## Edges and issues -/

/-- Where an edge leads. -/
inductive EdgeTarget (known : List ImportGraphNode) (edge : ImportGraphEdge) : Prop
  | document {node : ImportGraphNode} : node ∈ known →
    edge.state = .loaded ∨ edge.state = .alreadyLoaded → edge.issueCode = none →
    edge.targetPath = some node.path → edge.targetDocumentId = some node.documentId →
    EdgeTarget known edge
  | cycle {node : ImportGraphNode} : node ∈ known → edge.state = .cycle →
    edge.issueCode = some .cycle → edge.targetDocumentId = some node.documentId →
    EdgeTarget known edge
  | refusal {code : ImportGraphIssueCode} : isRefusal edge.state = true →
    edge.issueCode = some code → edge.targetDocumentId = none → EdgeTarget known edge

/-- An edge belongs to a reference of a known document. -/
structure EdgeOk (known : List ImportGraphNode) (edge : ImportGraphEdge) : Prop where
  owner : ∃ owner ∈ known, edge.fromDocumentId = owner.documentId ∧
    edge.reference ∈ owner.imports ∧ edge.depth = owner.depth + 1 ∧
    ∀ path ∈ edge.targetPath, Refers owner.path edge.reference path
  target : EdgeTarget known edge

/-- An issue is about a canonical path and, if any, a reference of a known document. -/
structure IssueOk (known : List ImportGraphNode) (issue : ImportGraphIssue) : Prop where
  path : isRepositoryRelativePath issue.path = true
  targetPath : ∀ path ∈ issue.targetPath, isRepositoryRelativePath path = true
  reference : (issue.importId = none ∧ issue.range = none) ∨
    ∃ owner ∈ known, ∃ reference ∈ owner.imports,
      issue.importId = some reference.id ∧ issue.range = some reference.specifierRange

/-- The loop of a document is at these of its references. -/
structure Opened (known : List ImportGraphNode) (document : OpenDocument)
    (references : List ImportReference) : Prop where
  canonical : isRepositoryRelativePath document.path = true
  node : ∃ node ∈ known, node.documentId = document.documentId ∧ node.path = document.path ∧
    node.depth = document.depth ∧ references ⊆ node.imports

variable {known : List ImportGraphNode}

theorem Opened.tail {reference : ImportReference}
    (opened : Opened known document (reference :: references)) : Opened known document references :=
  { opened with
    node :=
      let ⟨node, member, id, path, depth, imports⟩ := opened.node
      ⟨node, member, id, path, depth, fun _ later => imports (mem_cons_of_mem _ later)⟩ }

theorem Opened.child {path : RelativePath} (depth : Nat) {file : ReadOnlyRepositoryFile}
    (canonical : isRepositoryRelativePath path = true)
    (parsed : parseDocument loader (idsOf loader path file) file.bytes = .ok imports)
    (member : nodeOf loader path depth file ∈ known) :
    Opened known (documentOf loader path depth file) imports where
  canonical := canonical
  node := ⟨_, member, nodeOf_documentId .., nodeOf_path .., nodeOf_depth ..,
    by rw [nodeOf_imports_of_ok _ parsed]; exact Subset.refl _⟩

theorem Opened.edgeOk {reference : ImportReference} {edgeState : ImportGraphEdgeState}
    {targetPath : Option RelativePath} {targetId : Option Text}
    {issueCode : Option ImportGraphIssueCode}
    (opened : Opened known document (reference :: references))
    (refers : ∀ path ∈ targetPath, Refers document.path reference path)
    (target : EdgeTarget known (edgeOf document reference edgeState targetPath targetId issueCode)) :
    EdgeOk known (edgeOf document reference edgeState targetPath targetId issueCode) where
  owner := by
    obtain ⟨node, member, id, path, depth, imports⟩ := opened.node
    exact ⟨node, member, id.symm, imports mem_cons_self, by rw [depth]; rfl,
      by rw [path]; exact refers⟩
  target := target

theorem Opened.edgeOk_loaded {reference : ImportReference} {path : RelativePath} {depth : Nat}
    {file : ReadOnlyRepositoryFile} (opened : Opened known document (reference :: references))
    (refers : Refers document.path reference path) (member : nodeOf loader path depth file ∈ known) :
    EdgeOk known (childEdge document reference path
      (.loaded (idsOf loader path file).documentId)) :=
  opened.edgeOk (fun _ eq => by cases eq; exact refers) (.document member (.inl rfl) rfl
    (by rw [nodeOf_path]; rfl) (by rw [nodeOf_documentId]; rfl))

theorem Outcome.edgeOk {reference : ImportReference}
    (outcome : Outcome loader.limits document state referenceIndex reference edge issue reads)
    (tracked : Tracked state) (subset : state.nodes ⊆ known)
    (opened : Opened known document (reference :: references)) : EdgeOk known edge := by
  cases outcome with
  | fanOut => exact opened.edgeOk (fun _ none => by cases none) (.refusal rfl rfl rfl)
  | refused refusal refers _ => exact opened.edgeOk refers (.refusal refusal rfl rfl)
  | @cycle _ documentId _ refers active _ =>
    have named : ∃ node ∈ state.nodes, node.documentId = documentId := by
      rcases active with ⟨path, found⟩ | ⟨identity, found⟩
      · obtain ⟨node, member, -, id⟩ := tracked.active path _ found
        exact ⟨node, member, id⟩
      · exact tracked.identities identity _ found
    obtain ⟨node, member, rfl⟩ := named
    exact opened.edgeOk (fun _ eq => by cases eq; exact refers)
      (.cycle (subset member) rfl rfl rfl)
  | alreadyLoaded refers completed =>
    obtain ⟨node, member, rfl, rfl⟩ := tracked.completed _ _ completed
    exact opened.edgeOk (fun _ eq => by cases eq; exact refers)
      (.document (subset member) (.inr rfl) rfl rfl rfl)

theorem Walk.edgeOk (walk : Walk loader document referenceIndex references state forest final)
    (tracked : Tracked state) (subset : final.nodes ⊆ known)
    (opened : Opened known document references) : ∀ edge ∈ forest.edges, EdgeOk known edge := by
  induction walk with
  | done => exact fun _ member => by cases member
  | halted => exact fun _ member => by cases member
  | exhausted => exact fun _ member => by cases member
  | leaf _ _ outcome walk ih =>
    have before := Subset.trans walk.subset_nodes subset
    rw [afterOutcome_nodes] at before
    exact forall_mem_cons.mpr
      ⟨outcome.edgeOk tracked before opened, ih tracked.afterOutcome subset opened.tail⟩
  | unparsed _ _ descends _ walk ih =>
    have before := Subset.trans walk.subset_nodes subset
    exact forall_mem_cons.mpr
      ⟨opened.edgeOk_loaded descends.refers (before
        (mem_append_right (takeSlot _).nodes (mem_singleton_self _))),
        ih (tracked.takeSlot.unparsed descends.inactive descends.incomplete).addLoadedEdge subset
          opened.tail⟩
  | parsed _ _ descends parsed children walk childrenIh ih =>
    have before := Subset.trans walk.subset_nodes subset
    have member := before (children.subset_nodes (mem_openState_nodes ..))
    have middle := children.tracked
      (tracked.takeSlot.opened descends.inactive descends.incomplete)
    have closes := middle.closed (children.subset_nodes (mem_openState_nodes ..))
    refine forall_mem_cons.mpr
      ⟨opened.edgeOk_loaded descends.refers member, fun edge edgeMember => ?_⟩
    rcases mem_append.mp edgeMember with inner | later
    · exact childrenIh (tracked.takeSlot.opened descends.inactive descends.incomplete) before
        (.child _ (descends.canonical opened.canonical) parsed member) edge inner
    · exact ih closes.addLoadedEdge subset opened.tail edge later

/-- What `addIssue` adds is the issue described. -/
theorem mem_addIssue {path : RelativePath} {reference : Option ImportReference}
    {targetPath : Option RelativePath} {issue : ImportGraphIssue}
    (member : issue ∈ (addIssue limits state code path reference targetPath).issues) :
    issue ∈ state.issues ∨ issue = {
      code, importId := reference.map (·.id), path
      range := reference.map (·.specifierRange), targetPath } := by
  simp only [addIssue] at member
  split at member
  · exact .inl member
  · exact (mem_append.mp member).imp id mem_singleton.mp

variable (state) in
theorem Opened.issueOk {reference : ImportReference} {targetPath : Option RelativePath}
    (opened : Opened known document references) (inReferences : reference ∈ references)
    (refers : ∀ path ∈ targetPath, isRepositoryRelativePath path = true)
    (ok : ∀ issue ∈ state.issues, IssueOk known issue) :
    ∀ issue ∈ (addIssue limits state code document.path (some reference) targetPath).issues,
      IssueOk known issue := by
  intro issue member
  rcases mem_addIssue member with member | rfl
  · exact ok issue member
  · obtain ⟨node, member, -, -, -, imports⟩ := opened.node
    exact ⟨opened.canonical, refers, .inr ⟨node, member, reference, imports inReferences, rfl, rfl⟩⟩

theorem Opened.reportFanOut_issueOk (opened : Opened known document imports)
    (ok : ∀ issue ∈ state.issues, IssueOk known issue) :
    ∀ issue ∈ (reportFanOut limits document imports state).issues, IssueOk known issue := by
  unfold reportFanOut
  split
  · rename_i omitted found
    exact opened.issueOk _ (mem_of_getElem? found) (fun _ none => by cases none) ok
  · exact ok

theorem Outcome.issueOk {reference : ImportReference}
    (outcome : Outcome loader.limits document state referenceIndex reference edge issue reads)
    (opened : Opened known document (reference :: references))
    (ok : ∀ issue ∈ state.issues, IssueOk known issue) :
    ∀ reported ∈ (afterOutcome loader.limits document reference edge issue reads state).issues,
      IssueOk known reported := by
  have canonical : ∀ path, Refers document.path reference path →
      isRepositoryRelativePath path = true :=
    fun path refers => (resolveTarget_canonical opened.canonical refers.resolved).1
  cases outcome with
  | fanOut => exact ok
  | refused _ refers _ =>
    exact opened.issueOk (takeSlot state) mem_cons_self
      (fun path eq => canonical path (refers path eq)) ok
  | cycle refers _ _ =>
    exact opened.issueOk (takeSlot state) mem_cons_self
      (fun path eq => by cases eq; exact canonical _ refers) ok
  | alreadyLoaded => exact ok

theorem Walk.issueOk (walk : Walk loader document referenceIndex references state forest final)
    (subset : final.nodes ⊆ known) (opened : Opened known document references)
    (ok : ∀ issue ∈ state.issues, IssueOk known issue) :
    ∀ issue ∈ final.issues, IssueOk known issue := by
  induction walk with
  | done => exact ok
  | halted => exact ok
  | exhausted => exact opened.issueOk _ mem_cons_self (fun _ none => by cases none) ok
  | leaf _ _ outcome _ ih => exact ih subset opened.tail (outcome.issueOk opened ok)
  | unparsed _ _ descends _ _ ih =>
    refine ih subset opened.tail (opened.issueOk (enterState ..) mem_cons_self
      (fun path eq => ?_) ok)
    cases eq
    exact descends.canonical opened.canonical
  | parsed _ _ descends parsed children walk childrenIh ih =>
    have before := Subset.trans walk.subset_nodes subset
    have member := before (children.subset_nodes (mem_openState_nodes ..))
    have child := Opened.child _ (descends.canonical opened.canonical) parsed member
    exact ih subset opened.tail (childrenIh before child (child.reportFanOut_issueOk ok))

end Walks

end AgentContextLint.ImportGraph
