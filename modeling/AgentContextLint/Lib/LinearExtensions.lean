import AgentContextLint.Lib.SourceRemoval
import Mathlib.Data.Finset.Card

/-!
# Linear extensions by removing sources

A linear extension of a graph is an order of its vertices that respects its arcs.
-/

namespace SourceRemoval

open Sorting Arcs List
open SourceRemoval (run take)

variable {α : Type} [DecidableEq α] {cmp : α → α → Ordering} {vertices : List α}
  {arcs : List (α × α)} {progress : Progress α} {order : List α}
  {others : List (α × α)} {a b : α} {current : α} {rounds : Nat}

/-- An order of the vertices that respects the arcs. -/
structure IsLinearExtension (vertices : List α) (arcs : List (α × α)) (order : List α) : Prop where
  perm : order.Perm vertices
  respects : ∀ arc ∈ arcs, Before order arc.1 arc.2

/-- The number of vertices from which a vertex is reached grows along the arcs. -/
theorem exists_rank (acyclic : Acyclic arcs) :
    ∃ rank : α → Nat, ∀ arc ∈ arcs, rank arc.1 < rank arc.2 := by
  classical
  let above (vertex : α) : Finset α := (arcs.map (·.1)).toFinset.filter fun source =>
    Relation.TransGen (fun source target => (source, target) ∈ arcs) source vertex
  refine ⟨fun vertex => (above vertex).card, fun arc member => ?_⟩
  apply Finset.card_lt_card
  rw [Finset.ssubset_iff_of_subset]
  · refine ⟨arc.1, ?_, ?_⟩
    · rw [Finset.mem_filter, mem_toFinset]
      exact ⟨mem_map_of_mem member, Relation.TransGen.single member⟩
    · rw [Finset.mem_filter]
      exact fun both => acyclic arc.1 both.2
  · intro source reaches
    rw [Finset.mem_filter] at reaches ⊢
    exact ⟨reaches.1, reaches.2.tail member⟩

/-! ## What a round keeps -/

/-- The sequence is sound, and respects the arcs that lead into it. -/
structure Sequencing (vertices : List α) (arcs : List (α × α)) (progress : Progress α) : Prop
    extends Sound vertices arcs progress where
  respects : ∀ arc ∈ arcs, arc.2 ∈ progress.sequence → Before progress.sequence arc.1 arc.2

theorem Sequencing.start : Sequencing vertices arcs (start arcs) where
  toSound := Sound.start
  respects := fun _ _ member => by cases member

/-- What leads into a vertex that is ready comes from the sequence. -/
theorem source_of_ready (sound : Sound vertices arcs progress)
    (member : current ∈ ready vertices progress) {arc : α × α} (inArcs : arc ∈ arcs)
    (into : arc.2 = current) : arc.1 ∈ progress.sequence := by
  have zero := (mem_ready.mp member).2.2
  rw [sound.pending] at zero
  have none := countP_eq_zero.mp (Int.natCast_eq_zero.mp zero) arc inArcs
  by_contra outside
  exact none (by simp [outside, into])

theorem Sequencing.take (sequencing : Sequencing vertices arcs progress)
    (member : current ∈ ready vertices progress) (only : Bool) :
    Sequencing vertices arcs (take arcs progress current only) where
  toSound := sequencing.toSound.take member only
  respects := by
    intro arc inArcs target
    rcases mem_append.mp target with old | new
    · exact (sequencing.respects arc inArcs old).append_right [current]
    · have into := mem_singleton.mp new
      have source := source_of_ready sequencing.toSound member inArcs into
      rw [into]
      exact before_append_cons source

theorem Sequencing.run (sequencing : Sequencing vertices arcs progress) (rounds : Nat) :
    Sequencing vertices arcs (run cmp vertices arcs rounds progress) := by
  induction rounds generalizing progress with
  | zero => exact sequencing
  | succ rounds ih =>
    rw [run]
    split
    · exact sequencing
    · next current others sorted => exact ih (sequencing.take (head_ready sorted) _)

theorem run_goesOn (cmp : α → α → Ordering) (vertices : List α) (arcs : List (α × α))
    (progress : Progress α) (rounds : Nat) :
    progress.sequence <+: (run cmp vertices arcs rounds progress).sequence := by
  induction rounds generalizing progress with
  | zero => exact prefix_refl _
  | succ rounds ih =>
    rw [run]
    split
    · exact prefix_refl _
    · next current others sorted =>
        exact (prefix_append _ _).trans (ih (take arcs progress current others.isEmpty))

/-! ## Linear extensions -/

/-- A graph without a cycle, among some vertices. -/
structure IsDag (vertices : List α) (arcs : List (α × α)) : Prop where
  distinct : vertices.Nodup
  inside : ∀ arc ∈ arcs, arc.1 ∈ vertices ∧ arc.2 ∈ vertices
  acyclic : Acyclic arcs

/-- With enough rounds left, every sequence is completed. -/
theorem isLinearExtension_run (dag : IsDag vertices arcs)
    (sequencing : Sequencing vertices arcs progress)
    (enough : vertices.length ≤ progress.sequence.length + rounds) :
    IsLinearExtension vertices arcs (run cmp vertices arcs rounds progress).sequence := by
  rcases exists_rank dag.acyclic with ⟨rank, increases⟩
  have final : Sequencing vertices arcs (run cmp vertices arcs rounds progress) :=
    sequencing.run rounds
  have whole : vertices.length ≤ (run cmp vertices arcs rounds progress).sequence.length :=
    length_le_run sequencing.toSound rank increases
      (fun arc member => (dag.inside arc member).1) dag.distinct enough
  have perm := (subperm_of_subset final.nodup final.inside).perm_of_length_le whole
  exact ⟨perm, fun arc member =>
    final.respects arc member (perm.mem_iff.mpr (dag.inside arc member).2)⟩

/-- In an order without repetitions, what comes before a vertex stands in front of it. -/
theorem mem_of_before {front rest : List α} (distinct : (front ++ b :: rest).Nodup)
    (before : Before (front ++ b :: rest) a b) : a ∈ front := by
  have inOrder := before.mem_left
  by_contra outside
  have apart : a ≠ b := fun eq => Before.irrefl distinct (eq ▸ before)
  have behind : a ∈ rest := by
    rcases mem_append.mp inOrder with inFront | inRest
    · exact absurd inFront outside
    · exact (mem_cons.mp inRest).resolve_left apart
  have after : Before (front ++ b :: rest) b a :=
    ((singleton_sublist.mpr behind).cons_cons b).trans (sublist_append_right front _)
  exact Before.irrefl distinct (before.trans distinct after)

/-- An order that goes on from a sequence goes on with a vertex that is ready. -/
theorem ready_of_extension (dag : IsDag vertices arcs) (sound : Sound vertices arcs progress) {rest : List α}
    (extension : IsLinearExtension vertices arcs (progress.sequence ++ current :: rest)) :
    current ∈ ready vertices progress := by
  have distinct := extension.perm.nodup_iff.mpr dag.distinct
  have inside : current ∈ vertices := extension.perm.mem_iff.mp
    (mem_append_right _ mem_cons_self)
  have fresh : current ∉ progress.sequence := fun member =>
    (nodup_append.mp distinct).2.2 current member current mem_cons_self rfl
  refine mem_ready.mpr ⟨inside, fresh, ?_⟩
  rw [sound.pending]
  apply Int.natCast_eq_zero.mpr
  apply countP_eq_zero.mpr
  intro arc member entering
  have both : arc.1 ∉ progress.sequence ∧ arc.2 = current := by simpa using entering
  have before := extension.respects arc member
  rw [both.2] at before
  exact both.1 (mem_of_before distinct before)

omit [DecidableEq α] in
theorem eq_of_complete (whole : vertices.length ≤ progress.sequence.length)
    (extension : IsLinearExtension vertices arcs order) (goesOn : progress.sequence <+: order) :
    order = progress.sequence :=
  (goesOn.eq_of_length_le (extension.perm.length_eq.trans_le whole)).symm

section

variable (dag : IsDag vertices arcs)

include dag

theorem stuck_complete (sound : Sound vertices arcs progress)
    (stuck : sortBy cmp (ready vertices progress) = []) :
    vertices.length ≤ progress.sequence.length := by
  rcases exists_rank dag.acyclic with ⟨rank, increases⟩
  have nothing : ready vertices progress = [] :=
    length_eq_zero_iff.mp ((length_sortBy cmp _).symm.trans (congrArg length stuck))
  have all : vertices ⊆ progress.sequence := fun vertex member => by
    by_contra outside
    exact exists_ready sound rank increases (fun arc inArcs => (dag.inside arc inArcs).1) member
      outside nothing
  exact (subperm_of_subset dag.distinct all).length_le

/-- There was no choice exactly if the sequence goes on in one way. -/
theorem unique_run_iff_of (sequencing : Sequencing vertices arcs progress)
    (enough : vertices.length ≤ progress.sequence.length + rounds) :
    (run cmp vertices arcs rounds progress).unique = true ↔ progress.unique = true ∧
      ∀ order, IsLinearExtension vertices arcs order → progress.sequence <+: order →
        order = (run cmp vertices arcs rounds progress).sequence := by
  induction rounds generalizing progress with
  | zero =>
    exact ⟨fun same => ⟨same, fun _ => eq_of_complete enough⟩, fun both => both.1⟩
  | succ rounds ih =>
    rw [run]
    split
    · next stuck =>
        exact ⟨fun same => ⟨same, fun _ =>
          eq_of_complete (stuck_complete dag sequencing.toSound stuck)⟩, fun both => both.1⟩
    · next current others sorted =>
        have isReady := head_ready sorted
        have perm : (current :: others).Perm (ready vertices progress) :=
          sorted ▸ sortBy_perm cmp _
        have enoughAfter (vertex : α) (only : Bool) : vertices.length ≤
            (take arcs progress vertex only).sequence.length + rounds := by
          simp only [take, length_append, length_singleton]
          omega
        have goesOn (vertex : α) (only : Bool) :
            progress.sequence <+: (take arcs progress vertex only).sequence :=
          prefix_append _ _
        rw [ih (sequencing.take isReady _) (enoughAfter current _)]
        constructor
        · intro both
          rcases Bool.and_eq_true_iff.mp both.1 with ⟨unique, only⟩
          refine ⟨unique, fun order extension extends_ => ?_⟩
          apply both.2 order extension
          rcases extends_ with ⟨rest, rfl⟩
          cases rest with
          | nil =>
            have inside := (mem_ready.mp isReady).1
            rw [append_nil] at extension
            exact absurd (extension.perm.mem_iff.mpr inside) (mem_ready.mp isReady).2.1
          | cons next rest =>
            have nextReady := ready_of_extension dag sequencing.toSound extension
            rw [isEmpty_iff.mp only] at perm
            have same := mem_singleton.mp (perm.mem_iff.mpr nextReady)
            rw [same, append_cons]
            exact prefix_append _ _
        · intro both
          refine ⟨Bool.and_eq_true_iff.mpr ⟨both.1, ?_⟩, fun order extension extends_ =>
            both.2 order extension ((goesOn current _).trans extends_)⟩
          cases others with
          | nil => rfl
          | cons other others =>
            exfalso
            have otherReady : other ∈ ready vertices progress :=
              perm.mem_iff.mp (mem_cons_of_mem current mem_cons_self)
            have apart : current ≠ other := by
              have distinct := perm.nodup_iff.mpr (dag.distinct.filter _)
              exact fun eq => (nodup_cons.mp distinct).1 (eq ▸ mem_cons_self)
            have second : IsLinearExtension vertices arcs (run cmp vertices arcs rounds
                (take arcs progress other true)).sequence :=
              isLinearExtension_run dag (sequencing.take otherReady true)
                (enoughAfter other true)
            have secondPrefix := run_goesOn cmp vertices arcs
              (take arcs progress other true) rounds
            have same := both.2 _ second ((goesOn other true).trans secondPrefix)
            have firstPrefix := run_goesOn cmp vertices arcs
              (take arcs progress current false) rounds
            rw [same] at secondPrefix
            have equal := prefix_of_prefix_length_le firstPrefix secondPrefix
              (by simp [take])
            have lists := equal.eq_of_length (by simp [take])
            exact apart (singleton_inj.mp (append_cancel_left lists))

/-- Removing sources never has a choice exactly if there is one linear extension. -/
theorem unique_run_iff : (run cmp vertices arcs vertices.length (start arcs)).unique = true ↔
      ∃! order, IsLinearExtension vertices arcs order := by
  have enough : vertices.length ≤ (start arcs).sequence.length + vertices.length :=
    Nat.le_add_left _ _
  rw [unique_run_iff_of dag Sequencing.start enough]
  have own : IsLinearExtension vertices arcs
      (run cmp vertices arcs vertices.length (start arcs)).sequence :=
    isLinearExtension_run dag Sequencing.start enough
  constructor
  · intro both
    exact ⟨_, own, fun order extension => both.2 order extension ( nil_prefix)⟩
  · intro one
    exact ⟨rfl, fun order extension _ => one.unique extension own⟩

/-- A graph without a cycle has a linear extension. -/
theorem IsDag.exists_linearExtension : ∃ order, IsLinearExtension vertices arcs order := by
  have extension : IsLinearExtension vertices arcs
      (run (fun _ _ => .eq) vertices arcs vertices.length (start arcs)).sequence :=
    isLinearExtension_run dag Sequencing.start (Nat.le_add_left _ _)
  exact ⟨_, extension⟩

/-- Two vertices without a path between them are ordered either way. -/
theorem IsDag.exists_before (inA : a ∈ vertices)
    (inB : b ∈ vertices) (apart : a ≠ b) (noReturn : ¬ Reaches arcs b a) :
    ∃ order, IsLinearExtension vertices arcs order ∧ Before order a b := by
  have more : IsDag vertices ((a, b) :: arcs) := by
    refine ⟨dag.distinct, fun arc member => ?_, dag.acyclic.cons apart noReturn⟩
    rcases mem_cons.mp member with rfl | old
    · exact ⟨inA, inB⟩
    · exact dag.inside arc old
  rcases more.exists_linearExtension with ⟨order, perm, respects⟩
  exact ⟨order, ⟨perm, fun arc member => respects arc (mem_cons_of_mem _ member)⟩,
    respects (a, b) mem_cons_self⟩

/-- If there is one linear extension, a path leads from one of two vertices to the other. -/
theorem IsDag.reaches_of_unique
    (one : ∃! order, IsLinearExtension vertices arcs order) (inA : a ∈ vertices)
    (inB : b ∈ vertices) (apart : a ≠ b) : Reaches arcs a b ∨ Reaches arcs b a := by
  by_contra unrelated
  rcases not_or.mp unrelated with ⟨notAfter, notBefore⟩
  rcases dag.exists_before inA inB apart notBefore with ⟨order, extension, before⟩
  rcases dag.exists_before inB inA apart.symm notAfter with ⟨other, otherExtension, after⟩
  have distinct := extension.perm.nodup_iff.mpr dag.distinct
  rw [one.unique otherExtension extension] at after
  exact Before.irrefl distinct (before.trans distinct after)

end

/-! ## Reordered input -/

theorem entering_perm (perm : arcs.Perm others) (source : α → Bool)
    (vertex : α) : entering arcs source vertex = entering others source vertex := perm.countP_eq _

theorem start_perm (perm : arcs.Perm others) : start arcs = start others := by
  unfold start
  simp only [entering_perm perm]

theorem take_perm (perm : arcs.Perm others) (current : α) (only : Bool) :
    take arcs progress current only = take others progress current only := by
  unfold take
  simp only [entering_perm perm]

/-- Neither the order of the vertices nor that of the arcs matters. -/
theorem run_congr {vertices' : List α} {arcs' : List (α × α)} [Std.TransCmp cmp]
    (ties : ∀ x ∈ vertices, ∀ y ∈ vertices, cmp x y = .eq → x = y)
    (perm : vertices.Perm vertices') (arcsPerm : arcs.Perm arcs') (rounds : Nat) :
    run cmp vertices arcs rounds progress = run cmp vertices' arcs' rounds progress := by
  induction rounds generalizing progress with
  | zero => rfl
  | succ rounds ih =>
    have sameReady : sortBy cmp (ready vertices progress) = sortBy cmp (ready vertices' progress) :=
      sortBy_eq_of_perm cmp
        (fun x inX y inY => ties x (mem_filter.mp inX).1 y (mem_filter.mp inY).1)
        (perm.filter _)
    rw [run, run, sameReady]
    split
    · rfl
    · rw [take_perm arcsPerm]
      exact ih

end SourceRemoval
