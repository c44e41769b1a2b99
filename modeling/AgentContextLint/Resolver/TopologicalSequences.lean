import AgentContextLint.Resolver.IssuedResolutions
import AgentContextLint.Lib.LinearExtensions

/-!
# The order of documents

If its edges have no cycle, `topologicalSequence` orders its documents as the edges say, and finds
the order complete exactly if there is no other one. In which order the documents and the edges are
given does not matter.
-/

namespace AgentContextLint.EffectiveContext

open Utf16 Utf8 Sorting Arcs
open SourceRemoval (IsLinearExtension IsDag Sequencing run run_congr start start_perm)
open ProfileProjections (Named claude_shape)

variable {documents documents' : List EffectiveContextDocument}
  {edges edges' : List EffectiveContextPrecedence} {order : List Text}

/-- The order names each document once, and respects the edges between the documents. -/
structure Orders (documents : List EffectiveContextDocument)
    (edges : List EffectiveContextPrecedence) (order : List Text) : Prop where
  once : order.Nodup
  all : ∀ id, id ∈ order ↔ ∃ document ∈ documents, document.id = id
  respects : ∀ edge ∈ edges, edge.beforeDocumentId ∈ order → edge.afterDocumentId ∈ order →
    Before order edge.beforeDocumentId edge.afterDocumentId

/-! ## The graph -/

def sequencedIds (documents : List EffectiveContextDocument) : List Text :=
  (documents.map (·.id)).eraseDups

/-- The edges that `topologicalSequence` counts. -/
def sequencedArcs (documents : List EffectiveContextDocument)
    (edges : List EffectiveContextPrecedence) : List (Text × Text) :=
  (edges.map arc).filter fun arc => arc.1 ∈ sequencedIds documents ∧ arc.2 ∈ sequencedIds documents

theorem mem_sequencedIds {id : Text} :
    id ∈ sequencedIds documents ↔ ∃ document ∈ documents, document.id = id :=
  List.mem_eraseDups.trans List.mem_map

theorem mem_sequencedArcs {pair : Text × Text} : pair ∈ sequencedArcs documents edges ↔
    (∃ edge ∈ edges, arc edge = pair) ∧ pair.1 ∈ sequencedIds documents ∧
      pair.2 ∈ sequencedIds documents := by
  rw [sequencedArcs, List.mem_filter, List.mem_map, decide_eq_true_iff]

theorem isDag (acyclic : Acyclic (edges.map arc)) :
    IsDag (sequencedIds documents) (sequencedArcs documents edges) where
  distinct := nodup_eraseDups _
  inside := fun _ member => (mem_sequencedArcs.mp member).2
  acyclic := acyclic.subset (List.filter_subset_self _)

theorem orders_iff : Orders documents edges order ↔
      IsLinearExtension (sequencedIds documents) (sequencedArcs documents edges) order := by
  have distinct : (sequencedIds documents).Nodup := nodup_eraseDups _
  constructor
  · intro orders
    have same : ∀ id, id ∈ order ↔ id ∈ sequencedIds documents :=
      fun id => (orders.all id).trans mem_sequencedIds.symm
    refine ⟨(List.perm_ext_iff_of_nodup orders.once distinct).mpr same, ?_⟩
    intro pair member
    rcases mem_sequencedArcs.mp member with ⟨⟨edge, inEdges, rfl⟩, before, after⟩
    exact orders.respects edge inEdges ((same _).mpr before) ((same _).mpr after)
  · intro extension
    refine ⟨extension.perm.nodup_iff.mpr distinct,
      fun id => extension.perm.mem_iff.trans mem_sequencedIds, ?_⟩
    intro edge inEdges before after
    exact extension.respects (arc edge) (mem_sequencedArcs.mpr ⟨⟨edge, inEdges, rfl⟩,
      extension.perm.mem_iff.mp before, extension.perm.mem_iff.mp after⟩)

/-! ## The sequence -/

/-- What is left when no document is ready. -/
def sequencing (documents : List EffectiveContextDocument)
    (edges : List EffectiveContextPrecedence) : SourceRemoval.Progress Text :=
  run compareBytes (sequencedIds documents) (sequencedArcs documents edges)
    (sequencedIds documents).length (start (sequencedArcs documents edges))

section

variable (acyclic : Acyclic (edges.map arc))

include acyclic

theorem sequence_orders :
    Orders documents edges (topologicalSequence documents edges).sequence := by
  have enough : (sequencedIds documents).length ≤
      (start (sequencedArcs documents edges)).sequence.length +
        (sequencedIds documents).length := Nat.le_add_left _ _
  exact orders_iff.mpr (SourceRemoval.isLinearExtension_run (isDag acyclic) Sequencing.start enough)

theorem length_sequence :
    (topologicalSequence documents edges).sequence.length = (sequencedIds documents).length :=
  (orders_iff.mp (sequence_orders acyclic)).perm.length_eq

theorem topologicalSequence_of_acyclic : topologicalSequence documents edges =
      { complete := (sequencing documents edges).unique
        sequence := (sequencing documents edges).sequence
        ambiguities := [] } := by
  have whole : (sequencing documents edges).sequence.length = (sequencedIds documents).length :=
    length_sequence acyclic
  change TopologicalSequence.mk _ _ _ = _
  congr 1
  · exact (congrArg (· && (sequencing documents edges).unique) (decide_eq_true whole)).trans
      (Bool.true_and _)
  · exact if_neg whole.not_lt

theorem complete_iff : (topologicalSequence documents edges).complete = true ↔
      ∃! order, Orders documents edges order := by
  rw [topologicalSequence_of_acyclic acyclic]
  simp only [orders_iff]
  exact SourceRemoval.unique_run_iff (isDag acyclic)

end

variable {profileId : Text}

/-! ## Reordered input -/

theorem sequencedIds_perm (perm : documents.Perm documents') :
    (sequencedIds documents).Perm (sequencedIds documents') := by
  apply (List.perm_ext_iff_of_nodup (nodup_eraseDups _) (nodup_eraseDups _)).mpr
  intro id
  rw [List.mem_eraseDups, List.mem_eraseDups]
  exact (perm.map _).mem_iff

theorem sequencedArcs_perm (perm : documents.Perm documents') (edgesPerm : edges.Perm edges') :
    (sequencedArcs documents edges).Perm (sequencedArcs documents' edges') := by
  have same : ∀ id, id ∈ sequencedIds documents ↔ id ∈ sequencedIds documents' :=
    fun _ => (sequencedIds_perm perm).mem_iff
  unfold sequencedArcs
  simp only [same]
  exact (edgesPerm.map arc).filter _

theorem wellFormed_documentId (profileId : Text) (path : RelativePath) :
    wellFormed (documentId profileId path) = true := Sha256.wellFormed_append_take rfl _ _

/-- Ids that were made from paths are never compared as equal, and so their order decides. -/
theorem sequencing_perm (named : Named documents profileId)
    (perm : documents.Perm documents') (edgesPerm : edges.Perm edges') :
    sequencing documents edges = sequencing documents' edges' := by
  have ids := sequencedIds_perm perm
  have arcs := sequencedArcs_perm perm edgesPerm
  have legible : ∀ id ∈ sequencedIds documents, wellFormed id = true := by
    intro id member
    rcases mem_sequencedIds.mp member with ⟨document, inDocuments, rfl⟩
    rw [named document inDocuments]
    exact wellFormed_documentId _ _
  unfold sequencing
  rw [← ids.length_eq, ← start_perm arcs]
  exact run_congr (fun left inLeft right inRight =>
    eq_of_compareBytes (legible left inLeft) (legible right inRight)) ids arcs _

theorem topologicalSequence_reordered (named : Named documents profileId)
    (acyclic : Acyclic (edges.map arc)) (perm : documents.Perm documents')
    (edgesPerm : edges.Perm edges') :
    topologicalSequence documents' edges' = topologicalSequence documents edges := by
  have alsoAcyclic : Acyclic (edges'.map arc) :=
    acyclic.subset (edgesPerm.map arc).symm.subset
  rw [topologicalSequence_of_acyclic acyclic, topologicalSequence_of_acyclic alsoAcyclic,
    sequencing_perm named perm edgesPerm]

/-! ## The exact order -/

/-- The documents are ordered as the edges say, whatever order they and the edges are given in. The
order is the only one exactly if it is found complete, which for a Claude resolution is to be
total. -/
theorem topologicalSequence_exact (acyclic : Acyclic (edges.map arc)) :
    Orders documents edges (topologicalSequence documents edges).sequence ∧
      ((topologicalSequence documents edges).complete = true ↔
        ∃! order, Orders documents edges order) ∧
      (∀ profileId documents' edges', Named documents profileId → documents.Perm documents' →
        edges.Perm edges' →
          topologicalSequence documents' edges' = topologicalSequence documents edges) ∧
      ∀ value projection, projectClaude value = .ok projection →
        possible (documentsOf value) = documents → projectedPrecedence value = edges →
          projection.sequence = (topologicalSequence documents edges).sequence ∧
            (projection.ordering = .total ↔ ∃! order, Orders documents edges order) := by
  refine ⟨sequence_orders acyclic, complete_iff acyclic,
    fun _ _ _ named => topologicalSequence_reordered named acyclic, ?_⟩
  rintro value projection projects rfl rfl
  have shape := claude_shape projects
  rw [shape.sequence, shape.ordering, ← complete_iff acyclic]
  refine ⟨rfl, ?_⟩
  split_ifs with complete
  · exact iff_of_true rfl complete
  · exact iff_of_false (by simp) complete

/-- A document that is loaded, of a project's instructions. -/
def loadedDocument (id path : Text) : EffectiveContextDocument where
  activation := .active
  availableBytes := none
  contentSha256 := none
  contentState := .complete
  formatId := js "claude-memory"
  id := id
  includedBytes := none
  order := none
  path := path
  reasonCode := js "claude-active"
  sourceDocumentId := none
  state := .effective
  text := none
  truncation := .whole

/-- Two documents that are listed against their order. -/
theorem topologicalSequence_exact_pair :
    let documents := [loadedDocument (js "b") (js "b.md"), loadedDocument (js "a") (js "a.md")]
    let edges := [⟨js "b", js "a", .documentedPartialOrder⟩]
    (∃! order, Orders documents edges order) ∧
      (topologicalSequence documents edges).sequence = [js "a", js "b"] := by
  intro documents edges
  have acyclic : Acyclic (edges.map arc) := by
    apply acyclic_of_rank fun id => if id = js "a" then 0 else 1
    intro pair member
    cases List.mem_singleton.mp member
    decide
  have found : (topologicalSequence documents edges).complete = true ∧
      (topologicalSequence documents edges).sequence = [js "a", js "b"] := by decide
  exact ⟨(topologicalSequence_exact acyclic).2.1.mp found.1, found.2⟩

end AgentContextLint.EffectiveContext
