import AgentContextLint.Evidence.ImportGraphInvariants

/-!
# Forests and the references of documents

A forest `Matches` its edges to the documents they belong to and load. As long as documents
have identifiers of their own, the edges from a document are then the branches of its subtree
(`edgesFrom_subtree`), and the loader makes these in the order of the document's references.
-/

namespace AgentContextLint.ImportGraph

open Utf16 RepositoryPath List

namespace Forest

variable {forest : Forest} (edges : List ImportGraphEdge)

/-- Every edge comes from the document above it, and those of state `loaded` are exactly the
ones with a document below, which they name. -/
def Matches : Text → Forest → Prop
  | _, nil => True
  | owner, leaf edge rest =>
    edge.fromDocumentId = owner ∧ edge.state ≠ .loaded ∧ rest.Matches owner
  | owner, loaded edge node children rest =>
    edge.fromDocumentId = owner ∧ edge.state = .loaded ∧
      edge.targetDocumentId = some node.documentId ∧ children.Matches node.documentId ∧
      rest.Matches owner

/-- The documents, each with what it leads to. -/
def subtrees : Forest → List (ImportGraphNode × Forest)
  | nil => []
  | leaf _ rest => rest.subtrees
  | loaded _ node children rest => (node, children) :: (children.subtrees ++ rest.subtrees)

theorem map_subtrees (forest : Forest) : forest.subtrees.map (·.1) = forest.nodes := by
  induction forest with
  | nil => rfl
  | leaf edge rest ih => exact ih
  | loaded edge node children rest childrenIh restIh =>
    simp [subtrees, nodes, childrenIh, restIh]

def ids (forest : Forest) : List Text := forest.nodes.map (·.documentId)

theorem ids_loaded (edge : ImportGraphEdge) (node : ImportGraphNode) (children rest : Forest) :
    (loaded edge node children rest).ids = node.documentId :: (children.ids ++ rest.ids) := by
  simp [ids, nodes]

theorem mem_ids_of_subtree {tree : ImportGraphNode × Forest}
    (member : tree ∈ forest.subtrees) : tree.1.documentId ∈ forest.ids := by
  rw [ids, ← map_subtrees, map_map]
  exact mem_map_of_mem member

/-- The references of the edges that come from a document. -/
def edgesFrom (id : Text) (edges : List ImportGraphEdge) : List ImportReference :=
  (edges.filter (·.fromDocumentId = id)).map (·.reference)

theorem edgesFrom_append (id : Text) (first second : List ImportGraphEdge) :
    edgesFrom id (first ++ second) = edgesFrom id first ++ edgesFrom id second := by
  simp [edgesFrom]

variable {id : Text} {edge : ImportGraphEdge}

theorem edgesFrom_cons_self (from_ : edge.fromDocumentId = id) :
    edgesFrom id (edge :: edges) = edge.reference :: edgesFrom id edges := by
  simp [edgesFrom, from_]

theorem edgesFrom_cons_ne (from_ : edge.fromDocumentId ≠ id) :
    edgesFrom id (edge :: edges) = edgesFrom id edges := by
  simp [edgesFrom, from_]

variable {owner : Text}

/-- No edges come from elsewhere. -/
theorem edgesFrom_eq_nil (fits : forest.Matches owner) (notOwner : id ≠ owner)
    (notBelow : id ∉ forest.ids) : edgesFrom id forest.edges = [] := by
  induction forest generalizing owner with
  | nil => rfl
  | leaf edge rest ih =>
    obtain ⟨from_, -, rest⟩ := fits
    rw [edges, edgesFrom_cons_ne _ (from_ ▸ Ne.symm notOwner)]
    exact ih rest notOwner notBelow
  | loaded edge node children rest childrenIh restIh =>
    obtain ⟨from_, -, -, below, beside⟩ := fits
    rw [ids_loaded, mem_cons, mem_append, not_or, not_or] at notBelow
    rw [edges, edgesFrom_cons_ne _ (from_ ▸ Ne.symm notOwner), edgesFrom_append,
      childrenIh below notBelow.1 notBelow.2.1, restIh beside notOwner notBelow.2.2]
    rfl

/-- The edges from the document at the root are the branches of the forest. -/
theorem edgesFrom_root (fits : forest.Matches owner) (fresh : owner ∉ forest.ids)
    (nodup : forest.ids.Nodup) : edgesFrom owner forest.edges = forest.references := by
  induction forest with
  | nil => rfl
  | leaf edge rest ih =>
    obtain ⟨from_, -, beside⟩ := fits
    rw [edges, edgesFrom_cons_self _ from_, ih beside fresh nodup, references]
  | loaded edge node children rest _ restIh =>
    obtain ⟨from_, -, -, below, beside⟩ := fits
    rw [ids_loaded] at fresh nodup
    rw [mem_cons, mem_append, not_or, not_or] at fresh
    rw [edges, edgesFrom_cons_self _ from_, edgesFrom_append,
      edgesFrom_eq_nil below fresh.1 fresh.2.1, restIh beside fresh.2.2 nodup.of_cons.of_append_right,
      references]
    rfl

/-- The edges from any other document are the branches of its subtree. -/
theorem edgesFrom_subtree (fits : forest.Matches owner) (fresh : owner ∉ forest.ids)
    (nodup : forest.ids.Nodup) :
    ∀ tree ∈ forest.subtrees, edgesFrom tree.1.documentId forest.edges = tree.2.references := by
  induction forest generalizing owner with
  | nil => exact fun _ member => by cases member
  | leaf edge rest ih =>
    obtain ⟨from_, -, beside⟩ := fits
    intro tree member
    have other : edge.fromDocumentId ≠ tree.1.documentId := fun same =>
      fresh (from_ ▸ same ▸ mem_ids_of_subtree member)
    rw [edges, edgesFrom_cons_ne _ other]
    exact ih beside fresh nodup tree member
  | loaded edge node children rest childrenIh restIh =>
    obtain ⟨from_, -, -, below, beside⟩ := fits
    rw [ids_loaded] at fresh nodup
    rw [mem_cons, mem_append, not_or, not_or] at fresh
    obtain ⟨ownId, nodup⟩ := nodup_cons.mp nodup
    rw [mem_append, not_or] at ownId
    obtain ⟨nodupBelow, nodupBeside, apart⟩ := nodup_append.mp nodup
    rw [subtrees]
    refine forall_mem_cons.mpr ⟨?_, fun tree member => ?_⟩
    · rw [edges, edgesFrom_cons_ne _ (from_ ▸ fresh.1), edgesFrom_append,
        edgesFrom_root below ownId.1 nodupBelow,
        edgesFrom_eq_nil beside (Ne.symm fresh.1) ownId.2, append_nil]
    rcases mem_append.mp member with inner | later
    · have id := mem_ids_of_subtree inner
      have notOwner : tree.1.documentId ≠ owner := fun same => fresh.2.1 (same ▸ id)
      rw [edges, edgesFrom_cons_ne _ (from_ ▸ Ne.symm notOwner), edgesFrom_append,
        childrenIh below ownId.1 nodupBelow tree inner,
        edgesFrom_eq_nil beside notOwner (fun besides => apart _ id _ besides rfl),
        append_nil]
    · have id := mem_ids_of_subtree later
      have notOwner : tree.1.documentId ≠ owner := fun same => fresh.2.2 (same ▸ id)
      have notNode : tree.1.documentId ≠ node.documentId := fun same => ownId.2 (same ▸ id)
      rw [edges, edgesFrom_cons_ne _ (from_ ▸ Ne.symm notOwner), edgesFrom_append,
        edgesFrom_eq_nil below notNode (fun inner => apart _ inner _ id rfl), nil_append,
        restIh beside fresh.2.2 nodupBeside tree later]

variable {entry : ImportGraphNode}

/-- The edges from a document, the one above the forest included, are the branches of its
subtree. -/
theorem edgesFrom_of_tree (fits : forest.Matches entry.documentId)
    (nodup : ((entry :: forest.nodes).map (·.documentId)).Nodup) :
    ∀ tree ∈ (entry, forest) :: forest.subtrees,
      edgesFrom tree.1.documentId forest.edges = tree.2.references := by
  obtain ⟨fresh, nodup⟩ := nodup_cons.mp nodup
  exact forall_mem_cons.mpr
    ⟨edgesFrom_root fits fresh nodup, edgesFrom_subtree fits fresh nodup⟩

theorem exists_subtree {node : ImportGraphNode} (member : node ∈ entry :: forest.nodes) :
    ∃ below, (node, below) ∈ (entry, forest) :: forest.subtrees := by
  have heads : ((entry, forest) :: forest.subtrees).map (·.1) = entry :: forest.nodes := by
    rw [map_cons, forest.map_subtrees]
  rw [← heads] at member
  obtain ⟨⟨_, below⟩, tree, rfl⟩ := mem_map.mp member
  exact ⟨below, tree⟩

end Forest

/-! ## Walks -/

section Walks

variable {loader : Loader} {document : OpenDocument} {referenceIndex : Nat}
  {references : List ImportReference} {state final : MutableState} {forest : Forest}

theorem Outcome.edge {reference : ImportReference} {edge : ImportGraphEdge}
    {issue : Option (ImportGraphIssueCode × Option RelativePath)} {reads : List RelativePath}
    (outcome : Outcome loader.limits document state referenceIndex reference edge issue reads) :
    edge.fromDocumentId = document.documentId ∧ edge.reference = reference ∧
      edge.state ≠ .loaded := by
  cases outcome with
  | fanOut => exact ⟨rfl, rfl, fun loaded => by cases loaded⟩
  | @refused edgeState _ _ _ refusal _ _ =>
    refine ⟨rfl, rfl, fun loaded => ?_⟩
    cases (show edgeState = .loaded from loaded)
    cases refusal
  | cycle => exact ⟨rfl, rfl, fun loaded => by cases loaded⟩
  | alreadyLoaded => exact ⟨rfl, rfl, fun loaded => by cases loaded⟩

section

variable (walk : Walk loader document referenceIndex references state forest final)

include walk

theorem Walk.matches : forest.Matches document.documentId := by
  induction walk with
  | done => trivial
  | halted => trivial
  | exhausted => trivial
  | leaf _ _ outcome _ ih => exact ⟨outcome.edge.1, outcome.edge.2.2, ih⟩
  | unparsed _ _ _ _ _ ih => exact ⟨rfl, rfl, congrArg some (nodeOf_documentId ..).symm, trivial, ih⟩
  | parsed _ _ _ _ _ _ childrenIh ih =>
    exact ⟨rfl, rfl, congrArg some (nodeOf_documentId ..).symm, by rwa [nodeOf_documentId], ih⟩

/-- The branches of a document are made for its references in order, up to where the loop stops. -/
theorem Walk.branches : forest.references <+: references ∧
      ∀ tree ∈ forest.subtrees, tree.2.references <+: tree.1.imports := by
  induction walk with
  | done => exact ⟨ nil_prefix, fun _ member => by cases member⟩
  | halted => exact ⟨ nil_prefix, fun _ member => by cases member⟩
  | exhausted => exact ⟨ nil_prefix, fun _ member => by cases member⟩
  | leaf _ _ outcome _ ih =>
    refine ⟨?_, ih.2⟩
    rw [Forest.references, outcome.edge.2.1]
    exact (prefix_cons_inj _).mpr ih.1
  | unparsed _ _ _ _ _ ih =>
    exact ⟨(prefix_cons_inj _).mpr ih.1, forall_mem_cons.mpr ⟨ nil_prefix, ih.2⟩⟩
  | parsed _ _ _ parsed _ _ childrenIh ih =>
    refine ⟨(prefix_cons_inj _).mpr ih.1, forall_mem_cons.mpr ⟨?_, fun tree member => ?_⟩⟩
    · rw [nodeOf_imports_of_ok _ parsed]
      exact childrenIh.1
    · exact (mem_append.mp member).elim (childrenIh.2 tree) (ih.2 tree)

theorem Walk.of_halted (halted : state.halted = true) : forest = .nil ∧ final = state := by
  cases walk with
  | done => exact ⟨rfl, rfl⟩
  | halted => exact ⟨rfl, rfl⟩
  | exhausted running => rw [running] at halted; cases halted
  | leaf running => rw [running] at halted; cases halted
  | unparsed running => rw [running] at halted; cases halted
  | parsed running => rw [running] at halted; cases halted

end

/-- How many references there are in the documents of a forest. -/
def Forest.importCount (forest : Forest) : Nat := (forest.nodes.map (·.imports.length)).sum

/-- Every reference has taken a slot, but for those left over in the documents that were open
when the slots ran out. -/
theorem Walk.importCount (walk : Walk loader document referenceIndex references state forest final) :
    (final.halted = false → forest.importCount + references.length ≤ forest.edges.length) ∧
    forest.importCount ≤ forest.edges.length + 4096 * (loader.limits.maxDepth - document.depth) := by
  induction walk with
  | done => exact ⟨fun _ => Nat.le_refl 0, Nat.zero_le _⟩
  | halted halted => exact ⟨fun running => (by rw [running] at halted; cases halted), Nat.zero_le _⟩
  | exhausted => exact ⟨fun running => (by cases running), Nat.zero_le _⟩
  | leaf _ _ _ _ ih =>
    simp only [Forest.importCount, Forest.nodes, Forest.edges, length_cons] at ih ⊢
    exact ⟨fun running => (by have := ih.1 running; omega), by omega⟩
  | unparsed _ _ _ parsed _ ih =>
    simp only [Forest.importCount, Forest.nodes, Forest.edges, length_cons, map_cons,
      sum_cons, nil_append, nodeOf_imports_of_error _ parsed, length_nil] at ih ⊢
    exact ⟨fun running => (by have := ih.1 running; omega), by omega⟩
  | @parsed _ _ _ _ _ _ middle _ _ _ _ _ _ _ descends parsed _ walk childrenIh ih =>
    obtain ⟨_, -, lexed⟩ := parseDocument_eq_ok parsed
    have few := lexed.count
    have deep := descends.depth
    simp only [Forest.importCount, Forest.nodes, Forest.edges, length_cons, map_cons,
      sum_cons, map_append, sum_append, length_append,
      nodeOf_imports_of_ok _ parsed, documentOf] at ih childrenIh ⊢
    cases halted : middle.halted with
    | true =>
      obtain ⟨rfl, rfl⟩ := walk.of_halted halted
      refine ⟨fun running => ?_, ?_⟩
      · exact absurd (halted.symm.trans running) (by decide)
      · simp only [Forest.nodes, Forest.edges, map_nil, sum_nil, length_nil]
        omega
    | false =>
      have children := childrenIh.1 halted
      exact ⟨fun running => (by have := ih.1 running; omega), by omega⟩

end Walks

end AgentContextLint.ImportGraph
