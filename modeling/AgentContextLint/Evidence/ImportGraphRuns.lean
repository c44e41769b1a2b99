import AgentContextLint.Evidence.ImportGraph

/-!
# Runs of the import graph loader

`Walk` is the import loop of one document as a relation: what the loop finds is a `Forest`,
whose edges and documents in depth-first order are the edges and nodes that the loop adds.
`visit_visits` is the one inversion of the loader; the invariants are inductions over `Walk`.
-/

namespace AgentContextLint.ImportGraph

open Utf16 List
open Function (update)

/-! ## Forests -/

/-- What the references of a document lead to, in order: an edge, or an edge with the document
that it loads and what that document leads to. -/
inductive Forest
  | nil
  | leaf (edge : ImportGraphEdge) (rest : Forest)
  | loaded (edge : ImportGraphEdge) (node : ImportGraphNode) (children rest : Forest)

namespace Forest

/-- The edges in depth-first pre-order. -/
def edges : Forest → List ImportGraphEdge
  | nil => []
  | leaf edge rest => edge :: rest.edges
  | loaded edge _ children rest => edge :: (children.edges ++ rest.edges)

/-- The documents in depth-first pre-order. -/
def nodes : Forest → List ImportGraphNode
  | nil => []
  | leaf _ rest => rest.nodes
  | loaded _ node children rest => node :: (children.nodes ++ rest.nodes)

/-- The documents in depth-first post-order. -/
def finished : Forest → List ImportGraphNode
  | nil => []
  | leaf _ rest => rest.finished
  | loaded _ node children rest => children.finished ++ node :: rest.finished

/-- The references of the document at the root. -/
def references : Forest → List ImportReference
  | nil => []
  | leaf edge rest => edge.reference :: rest.references
  | loaded edge _ _ rest => edge.reference :: rest.references

theorem finished_perm (forest : Forest) : forest.finished.Perm forest.nodes := by
  induction forest with
  | nil => exact List.Perm.refl _
  | leaf edge rest ih => exact ih
  | loaded edge node children rest childrenIh restIh =>
    exact List.perm_middle.trans ((childrenIh.append restIh).cons node)

end Forest

/-! ## What one reference can do -/

/-- The reference of a document at `path` is recognized and names `targetPath`. -/
structure Refers (path : RelativePath) (reference : ImportReference)
    (targetPath : RelativePath) : Prop where
  recognized : reference.state = .recognized
  candidate : reference.targetKind = .repositoryPathCandidate
  resolved : (resolveTarget path reference.rawSpecifier).path = some targetPath

/-- The states of edges that name no document. -/
def isRefusal : ImportGraphEdgeState → Bool
  | .ambiguous | .rejected | .unavailable | .limitExceeded => true
  | .loaded | .alreadyLoaded | .cycle => false

/-- What becomes of a reference that loads no document: its edge, the issue reported with it
and what is read for it. -/
inductive Outcome (limits : ImportGraphLimits) (document : OpenDocument) (state : MutableState)
    (referenceIndex : Nat) (reference : ImportReference) : ImportGraphEdge →
      Option (ImportGraphIssueCode × Option RelativePath) →
      List RelativePath → Prop
  | fanOut : referenceIndex ≥ limits.maxFanOut →
    Outcome limits document state referenceIndex reference
      (edgeOf document reference .limitExceeded none none (some .fanOutLimit)) none []
  | refused {edgeState : ImportGraphEdgeState} {targetPath : Option RelativePath}
      {code : ImportGraphIssueCode} {reads : List RelativePath} :
    isRefusal edgeState = true → (∀ path ∈ targetPath, Refers document.path reference path) →
    reads.length ≤ 1 →
    Outcome limits document state referenceIndex reference
      (edgeOf document reference edgeState targetPath none (some code)) (some (code, targetPath))
      reads
  | cycle {targetPath : RelativePath} {documentId : Text}
      {reads : List RelativePath} :
    Refers document.path reference targetPath →
    ((∃ path, state.active path = some documentId) ∨
      ∃ identity, state.activeIdentities identity = some documentId) →
    reads.length ≤ 1 →
    Outcome limits document state referenceIndex reference
      (edgeOf document reference .cycle (some targetPath) (some documentId) (some .cycle))
      (some (.cycle, some targetPath)) reads
  | alreadyLoaded {targetPath : RelativePath} {documentId : Text} :
    Refers document.path reference targetPath → state.completed targetPath = some documentId →
    Outcome limits document state referenceIndex reference
      (edgeOf document reference .alreadyLoaded (some targetPath) (some documentId) none) none []

def afterOutcome (limits : ImportGraphLimits) (document : OpenDocument)
    (reference : ImportReference) (edge : ImportGraphEdge)
    (issue : Option (ImportGraphIssueCode × Option RelativePath))
    (reads : List RelativePath) (state : MutableState) : MutableState :=
  let reported := match issue with
    | none => takeSlot state
    | some (code, targetPath) =>
      addIssue limits (takeSlot state) code document.path (some reference) targetPath
  { addEdge reported edge none with reads := state.reads ++ reads }

/-! ## What loads a document -/

/-- The file at a path may be loaded. -/
structure Enters (loader : Loader) (state : MutableState) (path : RelativePath)
    (file : ReadOnlyRepositoryFile) : Prop where
  read : loader.readFile path = .ok file
  fresh : state.activeIdentities (identityKey file.identity) = none
  fileBytes : file.bytes.length ≤ loader.limits.maxFileBytes
  totalBytes : state.totalBytes + file.bytes.length ≤ loader.limits.maxTotalBytes

/-- A reference leads to a file that may be loaded. -/
structure Descends (loader : Loader) (document : OpenDocument) (state : MutableState)
    (reference : ImportReference) (targetPath : RelativePath)
    (file : ReadOnlyRepositoryFile) : Prop extends Enters loader state targetPath file where
  refers : Refers document.path reference targetPath
  inactive : state.active targetPath = none
  incomplete : state.completed targetPath = none
  depth : document.depth < loader.limits.maxDepth
  room : state.nodes.length < loader.limits.maxFiles

def idsOf (loader : Loader) (path : RelativePath) (file : ReadOnlyRepositoryFile) : StableIds :=
  stableIds path loader.syntaxName file.bytes

def nodeOf (loader : Loader) (path : RelativePath) (depth : Nat)
    (file : ReadOnlyRepositoryFile) : ImportGraphNode :=
  match parseDocument loader (idsOf loader path file) file.bytes with
  | .error _ => makeNode path depth (idsOf loader path file) file.bytes [] .parseFailed
  | .ok imports => makeNode path depth (idsOf loader path file) file.bytes imports .loaded

def documentOf (loader : Loader) (path : RelativePath) (depth : Nat)
    (file : ReadOnlyRepositoryFile) : OpenDocument where
  documentId := (idsOf loader path file).documentId
  path := path
  depth := depth
  identity := identityKey file.identity

def enterState (loader : Loader) (state : MutableState) (path : RelativePath)
    (depth : Nat) (file : ReadOnlyRepositoryFile) : MutableState :=
  { state with
    reads := state.reads ++ [path]
    totalBytes := state.totalBytes + file.bytes.length
    nodes := state.nodes ++ [nodeOf loader path depth file] }

/-- The state behind a file that has no readable references. -/
def unparsedState (loader : Loader) (state : MutableState) (path : RelativePath)
    (depth : Nat) (file : ReadOnlyRepositoryFile) (parent : Option Parent)
    (code : ImportGraphIssueCode) : MutableState :=
  { addIssue loader.limits (enterState loader state path depth file) code
      ((parent.map (·.path)).getD path) (parent.map (·.reference)) (some path) with
    completed :=
      update state.completed path (some (idsOf loader path file).documentId) }

/-- The state at the loop over the imports of a file. -/
def openState (loader : Loader) (state : MutableState) (path : RelativePath)
    (depth : Nat) (file : ReadOnlyRepositoryFile) (imports : List ImportReference) : MutableState :=
  let documentId := (idsOf loader path file).documentId
  reportFanOut loader.limits (documentOf loader path depth file) imports
    { enterState loader state path depth file with
      active := update state.active path (some documentId)
      activeIdentities :=
        update state.activeIdentities (identityKey file.identity) (some documentId) }

/-- The edge to a loaded file, in front of the edges behind `position`. -/
def addLoadedEdge (loader : Loader) (document : OpenDocument) (reference : ImportReference)
    (targetPath : RelativePath) (file : ReadOnlyRepositoryFile) (position : Nat)
    (state : MutableState) : MutableState :=
  addEdge state (childEdge document reference targetPath
    (.loaded (idsOf loader targetPath file).documentId)) (some position)

/-! ## Walks -/

/-- The import loop of a document from a reference on: `Walk loader document referenceIndex
references state forest state'`. -/
inductive Walk (loader : Loader) : OpenDocument → Nat → List ImportReference → MutableState →
    Forest → MutableState → Prop
  | done {document : OpenDocument} {referenceIndex : Nat} {state : MutableState} :
    Walk loader document referenceIndex [] state .nil state
  | halted {document : OpenDocument} {referenceIndex : Nat} {reference : ImportReference}
      {rest : List ImportReference} {state : MutableState} :
    state.halted = true →
    Walk loader document referenceIndex (reference :: rest) state .nil state
  | exhausted {document : OpenDocument} {referenceIndex : Nat} {reference : ImportReference}
      {rest : List ImportReference} {state : MutableState} :
    state.halted = false → state.edgeSlots ≥ loader.limits.maxEdges →
    Walk loader document referenceIndex (reference :: rest) state .nil
      { addIssue loader.limits state .edgeLimit document.path (some reference) none with
        halted := true }
  | leaf {document : OpenDocument} {referenceIndex : Nat} {reference : ImportReference}
      {rest : List ImportReference} {state final : MutableState} {edge : ImportGraphEdge}
      {issue : Option (ImportGraphIssueCode × Option RelativePath)}
      {reads : List RelativePath} {forest : Forest} :
    state.halted = false → state.edgeSlots < loader.limits.maxEdges →
    Outcome loader.limits document state referenceIndex reference edge issue reads →
    Walk loader document (referenceIndex + 1) rest
      (afterOutcome loader.limits document reference edge issue reads state) forest final →
    Walk loader document referenceIndex (reference :: rest) state (.leaf edge forest) final
  | unparsed {document : OpenDocument} {referenceIndex : Nat} {reference : ImportReference}
      {rest : List ImportReference} {state final : MutableState}
      {targetPath : RelativePath} {file : ReadOnlyRepositoryFile}
      {code : ImportGraphIssueCode} {forest : Forest} :
    state.halted = false → state.edgeSlots < loader.limits.maxEdges →
    Descends loader document state reference targetPath file →
    parseDocument loader (idsOf loader targetPath file) file.bytes = .error code →
    Walk loader document (referenceIndex + 1) rest
      (addLoadedEdge loader document reference targetPath file state.edges.length
        (unparsedState loader (takeSlot state) targetPath (document.depth + 1) file
          (some ⟨document.path, reference⟩) code)) forest final →
    Walk loader document referenceIndex (reference :: rest) state
      (.loaded (childEdge document reference targetPath
          (.loaded (idsOf loader targetPath file).documentId))
        (nodeOf loader targetPath (document.depth + 1) file) .nil forest) final
  | parsed {document : OpenDocument} {referenceIndex : Nat} {reference : ImportReference}
      {rest imports : List ImportReference} {state middle final : MutableState}
      {targetPath : RelativePath} {file : ReadOnlyRepositoryFile}
      {children forest : Forest} :
    state.halted = false → state.edgeSlots < loader.limits.maxEdges →
    Descends loader document state reference targetPath file →
    parseDocument loader (idsOf loader targetPath file) file.bytes = .ok imports →
    Walk loader (documentOf loader targetPath (document.depth + 1) file) 0 imports
      (openState loader (takeSlot state) targetPath (document.depth + 1) file imports) children
      middle →
    Walk loader document (referenceIndex + 1) rest
      (addLoadedEdge loader document reference targetPath file state.edges.length
        (closeDocument (documentOf loader targetPath (document.depth + 1) file) middle)) forest
      final →
    Walk loader document referenceIndex (reference :: rest) state
      (.loaded (childEdge document reference targetPath
          (.loaded (idsOf loader targetPath file).documentId))
        (nodeOf loader targetPath (document.depth + 1) file) children forest) final

/-- The visit of a file: what it returns and the state it leaves. -/
inductive Visits (loader : Loader) (state : MutableState) (path : RelativePath)
    (depth : Nat) (parent : Option Parent) : VisitResult × MutableState → Prop
  | failed {documentId : Option Text} {code : ImportGraphIssueCode} :
    (code = .cycle → ∃ id, documentId = some id ∧
      ∃ identity, state.activeIdentities identity = some id) →
    Visits loader state path depth parent (.failed documentId code,
      addIssue loader.limits { state with reads := state.reads ++ [path] } code
        ((parent.map (·.path)).getD path) (parent.map (·.reference)) (some path))
  | unparsed {file : ReadOnlyRepositoryFile} {code : ImportGraphIssueCode} :
    Enters loader state path file →
    parseDocument loader (idsOf loader path file) file.bytes = .error code →
    Visits loader state path depth parent (.loaded (idsOf loader path file).documentId,
      unparsedState loader state path depth file parent code)
  | parsed {file : ReadOnlyRepositoryFile} {imports : List ImportReference} {children : Forest}
      {middle : MutableState} :
    Enters loader state path file →
    parseDocument loader (idsOf loader path file) file.bytes = .ok imports →
    Walk loader (documentOf loader path depth file) 0 imports
      (openState loader state path depth file imports) children middle →
    Visits loader state path depth parent (.loaded (idsOf loader path file).documentId,
      closeDocument (documentOf loader path depth file) middle)

/-! ## The loader runs so -/

section Inversion

variable {loader : Loader} {state : MutableState} {path : RelativePath} {depth : Nat}
  {parent : Option Parent}

variable (loader state path depth parent) in
/-- Opening a document ends its visit, or leads to its imports. -/
theorem openDocument_cases :
    (∃ result, openDocument loader state path depth parent = .closed result.1 result.2 ∧
      Visits loader state path depth parent result) ∨
    ∃ file imports opened, Enters loader state path file ∧
      parseDocument loader (idsOf loader path file) file.bytes = .ok imports ∧
      openDocument loader state path depth parent =
        .opened (documentOf loader path depth file) imports opened ∧
      reportFanOut loader.limits (documentOf loader path depth file) imports opened =
        openState loader state path depth file imports := by
  unfold openDocument
  dsimp only
  cases read : loader.readFile path with
  | error failure => exact .inl ⟨(_, _), rfl, .failed (fun eq => by cases eq)⟩
  | ok file =>
    dsimp only
    cases fresh : state.activeIdentities (identityKey file.identity) with
    | some id => exact .inl ⟨(_, _), rfl, .failed (fun _ => ⟨id, rfl, _, fresh⟩)⟩
    | none =>
      dsimp only
      split
      · exact .inl ⟨(_, _), rfl, .failed (fun eq => by cases eq)⟩
      rename_i fileBytes
      split
      · exact .inl ⟨(_, _), rfl, .failed (fun eq => by cases eq)⟩
      rename_i totalBytes
      have enters : Enters loader state path file := ⟨read, fresh, by omega, by omega⟩
      cases parsed : parseDocument loader (idsOf loader path file) file.bytes with
      | error code =>
        have visits : Visits loader state path depth parent _ := .unparsed enters parsed
        refine .inl ⟨_, ?_, visits⟩
        rw [idsOf] at parsed
        simp [parsed, unparsedState, enterState, nodeOf, idsOf, addIssue]
      | ok imports =>
        refine .inr ⟨file, imports, _, enters, parsed, ?_, rfl⟩
        rw [idsOf] at parsed
        simp [parsed, documentOf, enterState, nodeOf, idsOf]

/-- Splicing at the end is pushing. -/
theorem addEdge_at_end (state : MutableState) (edge : ImportGraphEdge) :
    addEdge state edge (some state.edges.length) = addEdge state edge none := by
  simp [addEdge]

/-- A reference that is settled has one of the outcomes; another one names what to visit. -/
theorem settleReference_cases (limits : ImportGraphLimits) (document : OpenDocument)
    (referenceIndex : Nat) (reference : ImportReference) (state : MutableState) :
    (∃ edge issue, Outcome limits document state referenceIndex reference edge issue [] ∧
      settleReference limits document referenceIndex reference (takeSlot state) =
        .settled (afterOutcome limits document reference edge issue [] state)) ∨
    ∃ targetPath, Refers document.path reference targetPath ∧ state.active targetPath = none ∧
      state.completed targetPath = none ∧ document.depth < limits.maxDepth ∧
      state.nodes.length < limits.maxFiles ∧
      settleReference limits document referenceIndex reference (takeSlot state) =
        .descend targetPath := by
  generalize settles : settleReference limits document referenceIndex reference (takeSlot state) =
    settlement
  unfold settleReference at settles
  dsimp only at settles
  have after : ∀ edge issue, Settlement.settled (addEdge (match issue with
      | none => takeSlot state
      | some (code, targetPath) => addIssue limits (takeSlot state) code document.path
          (some reference) targetPath) edge none) =
      .settled (afterOutcome limits document reference edge issue [] state) := by
    intro edge issue
    simp only [afterOutcome, append_nil]
    cases issue <;> rfl
  by_cases omitted : referenceIndex ≥ limits.maxFanOut
  · rw [if_pos omitted] at settles
    exact .inl ⟨_, _, .fanOut omitted, settles.symm.trans (after _ none)⟩
  rw [if_neg omitted] at settles
  by_cases recognized : reference.state = .recognized
  case neg =>
    rw [if_pos recognized] at settles
    exact .inl ⟨_, _, .refused rfl (fun _ none => by cases none) (Nat.zero_le _),
      settles.symm.trans (after _ (some (_, none)))⟩
  rw [if_neg (not_not.mpr recognized)] at settles
  by_cases candidate : reference.targetKind = .repositoryPathCandidate
  case neg =>
    rw [if_pos candidate] at settles
    exact .inl ⟨_, _, .refused rfl (fun _ none => by cases none) (Nat.zero_le _),
      settles.symm.trans (after _ (some (_, none)))⟩
  rw [if_neg (not_not.mpr candidate)] at settles
  cases resolved : (resolveTarget document.path reference.rawSpecifier).path with
  | none =>
    simp only [resolved] at settles
    exact .inl ⟨_, _, .refused rfl (fun _ none => by cases none) (Nat.zero_le _),
      settles.symm.trans (after _ (some (_, none)))⟩
  | some targetPath =>
    have refers : Refers document.path reference targetPath :=
      ⟨recognized, candidate, resolved⟩
    have names : ∀ path ∈ some targetPath, Refers document.path reference path :=
      fun path eq => by cases eq; exact refers
    simp only [resolved] at settles
    cases active : state.active targetPath with
    | some id =>
      rw [show (takeSlot state).active targetPath = some id from active] at settles
      exact .inl ⟨_, _, .cycle refers (.inl ⟨_, active⟩) (Nat.zero_le _),
        settles.symm.trans (after _ (some (_, some _)))⟩
    | none =>
      rw [show (takeSlot state).active targetPath = none from active] at settles
      cases completed : state.completed targetPath with
      | some id =>
        rw [show (takeSlot state).completed targetPath = some id from completed] at settles
        exact .inl ⟨_, _, .alreadyLoaded refers completed, settles.symm.trans (after _ none)⟩
      | none =>
        rw [show (takeSlot state).completed targetPath = none from completed] at settles
        by_cases deep : document.depth ≥ limits.maxDepth
        · rw [if_pos deep] at settles
          exact .inl ⟨_, _, .refused rfl names (Nat.zero_le _),
            settles.symm.trans (after _ (some (_, some _)))⟩
        rw [if_neg deep] at settles
        by_cases full : (takeSlot state).nodes.length ≥ limits.maxFiles
        · rw [if_pos full] at settles
          exact .inl ⟨_, _, .refused rfl names (Nat.zero_le _),
            settles.symm.trans (after _ (some (_, some _)))⟩
        rw [if_neg full] at settles
        exact .inr ⟨targetPath, refers, active, completed, Nat.lt_of_not_ge deep, Nat.lt_of_not_ge full,
          settles.symm⟩

/-- The visit of a child that is not loaded is one of the outcomes. -/
theorem Visits.outcome_of_failed {document : OpenDocument} {referenceIndex : Nat}
    {reference : ImportReference} {targetPath : RelativePath}
    (refers : Refers document.path reference targetPath) {documentId : Option Text}
    {code : ImportGraphIssueCode} (cyclic : code = .cycle → ∃ id, documentId = some id ∧
      ∃ identity, state.activeIdentities identity = some id) :
    Outcome loader.limits document state referenceIndex reference
      (childEdge document reference targetPath (.failed documentId code))
      (some (code, some targetPath)) [targetPath] := by
  have names : ∀ path ∈ some targetPath, Refers document.path reference path :=
    fun path eq => by cases eq; exact refers
  have refusal : ∀ exceeds : Bool, isRefusal (if exceeds then .limitExceeded else .unavailable) =
      true := by decide
  by_cases isCycle : code = .cycle
  · obtain ⟨id, rfl, identity, active⟩ := cyclic isCycle
    subst isCycle
    exact .cycle refers (.inr ⟨identity, active⟩) (Nat.le_refl _)
  · have eq : childEdge document reference targetPath (.failed documentId code) =
        edgeOf document reference (if exceedsLimit code then .limitExceeded else .unavailable)
          (some targetPath) none (some code) := by
      cases code with
      | cycle => exact absurd rfl isCycle
      | _ => rfl
    rw [eq]
    exact .refused (refusal _) names (Nat.le_refl _)

/-- The import loop is a walk where the visits of children are what `Visits` says. -/
theorem importLoop_walk (document : OpenDocument)
    {descend : MutableState → RelativePath → Nat → Option Parent → VisitResult × MutableState}
    (visits : document.depth < loader.limits.maxDepth → ∀ state path parent,
      Visits loader state path (document.depth + 1) parent
        (descend state path (document.depth + 1) parent)) (referenceIndex : Nat)
    (references : List ImportReference) (state : MutableState) :
    ∃ forest, Walk loader document referenceIndex references state forest
      (importLoop loader.limits document descend referenceIndex references state) := by
  induction references generalizing referenceIndex state with
  | nil => exact ⟨.nil, .done⟩
  | cons reference rest ih =>
    rw [importLoop]
    by_cases halted : state.halted = true
    · rw [if_pos halted]
      exact ⟨.nil, .halted halted⟩
    rw [if_neg halted]
    have running : state.halted = false := by simpa using halted
    by_cases full : state.edgeSlots ≥ loader.limits.maxEdges
    · rw [if_pos full]
      exact ⟨.nil, .exhausted running full⟩
    rw [if_neg full]
    have slot : state.edgeSlots < loader.limits.maxEdges := by omega
    rcases settleReference_cases loader.limits document referenceIndex reference state with
      ⟨edge, issue, outcome, settles⟩ | ⟨targetPath, refers, inactive, incomplete, deep, room,
        settles⟩
    · rw [settles]
      obtain ⟨forest, walk⟩ := ih (referenceIndex + 1) (afterOutcome _ _ _ edge issue [] state)
      exact ⟨_, .leaf running slot outcome walk⟩
    · have child := visits deep (takeSlot state) targetPath (some ⟨document.path, reference⟩)
      rw [settles]
      dsimp only
      generalize descend (takeSlot state) targetPath (document.depth + 1)
        (some ⟨document.path, reference⟩) = result at child ⊢
      cases child with
      | @failed documentId code cyclic =>
        have outcome : Outcome loader.limits document state referenceIndex reference _ _ _ :=
          Visits.outcome_of_failed refers cyclic
        have after := addEdge_at_end (addIssue loader.limits
          { takeSlot state with reads := state.reads ++ [targetPath] } code document.path
          (some reference) (some targetPath))
          (childEdge document reference targetPath (.failed documentId code))
        obtain ⟨forest, walk⟩ := ih (referenceIndex + 1) (afterOutcome loader.limits document
          reference (childEdge document reference targetPath (.failed documentId code))
          (some (code, some targetPath)) [targetPath] state)
        refine ⟨_, .leaf running slot outcome (?_ : Walk _ _ _ _ _ forest _)⟩
        exact (congrArg (fun state => Walk loader document (referenceIndex + 1) rest _ forest
          (importLoop loader.limits document descend (referenceIndex + 1) rest state)) after).mpr
          walk
      | unparsed enters parsed =>
        obtain ⟨forest, walk⟩ := ih (referenceIndex + 1) _
        exact ⟨_, .unparsed running slot ⟨⟨enters.read, enters.fresh, enters.fileBytes,
          enters.totalBytes⟩, refers, inactive, incomplete, deep, room⟩ parsed walk⟩
      | parsed enters parsed children =>
        obtain ⟨forest, walk⟩ := ih (referenceIndex + 1) _
        exact ⟨_, .parsed running slot ⟨⟨enters.read, enters.fresh, enters.fileBytes,
          enters.totalBytes⟩, refers, inactive, incomplete, deep, room⟩ parsed children walk⟩

/-- A visit is what `Visits` says when the visits of its children are. -/
theorem visit_of_children {fuel : Nat}
    (children : depth < loader.limits.maxDepth → ∀ state path parent,
      Visits loader state path (depth + 1) parent (visit loader fuel state path (depth + 1) parent)) :
    Visits loader state path depth parent (visit loader (fuel + 1) state path depth parent) := by
  rcases openDocument_cases loader state path depth parent with
    ⟨result, eq, visits⟩ | ⟨file, imports, opened, enters, parsed, eq, reported⟩
  · simp only [visit, eq]
    exact visits
  · obtain ⟨forest, walk⟩ := importLoop_walk (documentOf loader path depth file)
      children 0 imports (openState loader state path depth file imports)
    simp only [visit, eq, reported]
    exact .parsed enters parsed walk

/-- The one inversion of the loader. The fuel is that of the depths still allowed. -/
theorem visit_visits (fuel : Nat) (state : MutableState) (path : RelativePath)
    (depth : Nat) (parent : Option Parent) (allowed : depth + fuel = loader.limits.maxDepth) :
    Visits loader state path depth parent (visit loader (fuel + 1) state path depth parent) := by
  induction fuel generalizing state path depth parent with
  | zero => exact visit_of_children fun deep => absurd deep (by omega)
  | succ fuel ih =>
    exact visit_of_children fun _ state path parent => ih state path (depth + 1) parent (by omega)

end Inversion

/-! ## What the steps of a walk change -/

section Fields

variable (loader : Loader) (limits : ImportGraphLimits) (document : OpenDocument)
  (reference : ImportReference) (edge : ImportGraphEdge)
  (issue : Option (ImportGraphIssueCode × Option RelativePath))
  (reads : List RelativePath) (state : MutableState) (path : RelativePath)
  (depth position : Nat) (file : ReadOnlyRepositoryFile) (parent : Option Parent)
  (code : ImportGraphIssueCode) (imports : List ImportReference)

@[simp] theorem afterOutcome_active :
    (afterOutcome limits document reference edge issue reads state).active = state.active := by
  cases issue <;> rfl

@[simp] theorem afterOutcome_activeIdentities :
    (afterOutcome limits document reference edge issue reads state).activeIdentities =
      state.activeIdentities := by
  cases issue <;> rfl

@[simp] theorem afterOutcome_completed :
    (afterOutcome limits document reference edge issue reads state).completed =
      state.completed := by
  cases issue <;> rfl

@[simp] theorem afterOutcome_nodes :
    (afterOutcome limits document reference edge issue reads state).nodes = state.nodes := by
  cases issue <;> rfl

@[simp] theorem afterOutcome_edges :
    (afterOutcome limits document reference edge issue reads state).edges =
      state.edges ++ [edge] := by
  cases issue <;> rfl

@[simp] theorem afterOutcome_reads :
    (afterOutcome limits document reference edge issue reads state).reads =
      state.reads ++ reads := by
  cases issue <;> rfl

@[simp] theorem afterOutcome_edgeSlots :
    (afterOutcome limits document reference edge issue reads state).edgeSlots =
      state.edgeSlots + 1 := by
  cases issue <;> rfl

@[simp] theorem afterOutcome_halted :
    (afterOutcome limits document reference edge issue reads state).halted = state.halted := by
  cases issue <;> rfl

@[simp] theorem afterOutcome_totalBytes :
    (afterOutcome limits document reference edge issue reads state).totalBytes =
      state.totalBytes := by
  cases issue <;> rfl

/-- Reporting on the fan-out touches nothing but the issues. -/
theorem reportFanOut_eq : reportFanOut limits document imports state =
    { state with issues := (reportFanOut limits document imports state).issues } := by
  unfold reportFanOut
  cases imports[limits.maxFanOut]? <;> rfl

theorem openState_eq : openState loader state path depth file imports =
    { enterState loader state path depth file with
      active := update state.active path (some (idsOf loader path file).documentId)
      activeIdentities := update state.activeIdentities (identityKey file.identity)
        (some (idsOf loader path file).documentId)
      issues := (openState loader state path depth file imports).issues } :=
  reportFanOut_eq ..

@[simp] theorem openState_active : (openState loader state path depth file imports).active =
    update state.active path (some (idsOf loader path file).documentId) := by
  rw [openState_eq]

@[simp] theorem openState_activeIdentities :
    (openState loader state path depth file imports).activeIdentities =
      update state.activeIdentities (identityKey file.identity)
        (some (idsOf loader path file).documentId) := by
  rw [openState_eq]

@[simp] theorem openState_completed :
    (openState loader state path depth file imports).completed = state.completed := by
  rw [openState_eq]
  rfl

@[simp] theorem openState_nodes : (openState loader state path depth file imports).nodes =
    state.nodes ++ [nodeOf loader path depth file] := by
  rw [openState_eq]
  rfl

theorem mem_openState_nodes : nodeOf loader path depth file ∈
    (openState loader state path depth file imports).nodes := by
  rw [openState_nodes]
  exact mem_append_right _ (mem_singleton_self _)

@[simp] theorem openState_edges :
    (openState loader state path depth file imports).edges = state.edges := by
  rw [openState_eq]
  rfl

@[simp] theorem openState_reads :
    (openState loader state path depth file imports).reads = state.reads ++ [path] := by
  rw [openState_eq]
  rfl

@[simp] theorem openState_edgeSlots :
    (openState loader state path depth file imports).edgeSlots = state.edgeSlots := by
  rw [openState_eq]
  rfl

@[simp] theorem openState_halted :
    (openState loader state path depth file imports).halted = state.halted := by
  rw [openState_eq]
  rfl

/-- What a file without readable references leaves, apart from the issue. -/
theorem unparsedState_eq : unparsedState loader state path depth file parent code =
    { enterState loader state path depth file with
      completed :=
        update state.completed path (some (idsOf loader path file).documentId)
      issues := (unparsedState loader state path depth file parent code).issues } := rfl

theorem addLoadedEdge_eq : addLoadedEdge loader document reference path file position state =
    { state with
      edges := (addLoadedEdge loader document reference path file position state).edges } := rfl

theorem addLoadedEdge_edges :
    (addLoadedEdge loader document reference path file position state).edges =
      state.edges.take position ++ childEdge document reference path
        (.loaded (idsOf loader path file).documentId) :: state.edges.drop position := rfl

end Fields

section Frame

variable {loader : Loader} {document : OpenDocument} {referenceIndex : Nat}
  {references : List ImportReference} {state final : MutableState} {forest : Forest}

section

variable (walk : Walk loader document referenceIndex references state forest final)

include walk

theorem Walk.nodes : final.nodes = state.nodes ++ forest.nodes := by
  induction walk with
  | done => exact (append_nil _).symm
  | halted => exact (append_nil _).symm
  | exhausted => exact (append_nil _).symm
  | leaf _ _ _ _ ih => rw [ih, afterOutcome_nodes, Forest.nodes]
  | unparsed _ _ _ _ _ ih =>
    rw [ih, addLoadedEdge_eq, unparsedState_eq]
    simp [enterState, takeSlot, Forest.nodes]
  | parsed _ _ _ _ _ _ childrenIh ih =>
    rw [ih, addLoadedEdge_eq]
    simp [closeDocument, childrenIh, takeSlot, Forest.nodes]

theorem Walk.subset_nodes : state.nodes ⊆ final.nodes := by
  rw [walk.nodes]
  exact subset_append_left _ _

theorem Walk.edges : final.edges = state.edges ++ forest.edges := by
  induction walk with
  | done => exact (append_nil _).symm
  | halted => exact (append_nil _).symm
  | exhausted => exact (append_nil _).symm
  | leaf _ _ _ _ ih => simp [ih, Forest.edges]
  | unparsed _ _ _ _ _ ih =>
    rw [ih, addLoadedEdge_edges, unparsedState_eq]
    simp [enterState, takeSlot, Forest.edges]
  | parsed _ _ _ _ _ _ childrenIh ih =>
    rw [ih, addLoadedEdge_edges]
    simp [closeDocument, childrenIh, takeSlot, Forest.edges]

theorem Walk.edgeSlots : final.edgeSlots = state.edgeSlots + forest.edges.length := by
  induction walk with
  | done => rfl
  | halted => rfl
  | exhausted => rfl
  | leaf _ _ _ _ ih =>
    simp only [ih, afterOutcome_edgeSlots, Forest.edges, length_cons]
    omega
  | unparsed _ _ _ _ _ ih =>
    rw [ih, addLoadedEdge_eq, unparsedState_eq]
    simp only [enterState, takeSlot, Forest.edges, length_cons, nil_append]
    omega
  | parsed _ _ _ _ _ _ childrenIh ih =>
    rw [ih, addLoadedEdge_eq]
    simp only [closeDocument, childrenIh, openState_edgeSlots, takeSlot, Forest.edges,
      length_cons, length_append]
    omega

/-- A walk reads no more than a file for each of its edges. -/
theorem Walk.reads : final.reads.length ≤ state.reads.length + forest.edges.length := by
  induction walk with
  | done => exact Nat.le_refl _
  | halted => exact Nat.le_refl _
  | exhausted => exact Nat.le_refl _
  | leaf _ _ outcome _ ih =>
    have few : ∀ {limits document state index reference edge issue reads},
        Outcome limits document state index reference edge issue reads → reads.length ≤ 1 := by
      intro _ _ _ _ _ _ _ _ outcome
      cases outcome with
      | fanOut => exact Nat.zero_le _
      | refused _ _ few => exact few
      | cycle _ _ few => exact few
      | alreadyLoaded => exact Nat.zero_le _
    have := few outcome
    simp only [afterOutcome_reads, length_append, Forest.edges, length_cons] at ih ⊢
    omega
  | unparsed _ _ _ _ _ ih =>
    rw [addLoadedEdge_eq, unparsedState_eq] at ih
    simp only [enterState, takeSlot, length_append, Forest.edges, length_cons,
      length_nil, nil_append] at ih ⊢
    omega
  | parsed _ _ _ _ _ _ childrenIh ih =>
    rw [addLoadedEdge_eq] at ih
    simp only [closeDocument, openState_reads, takeSlot, length_append, Forest.edges,
      length_cons, length_nil] at childrenIh ih ⊢
    omega

end

end Frame

end AgentContextLint.ImportGraph
