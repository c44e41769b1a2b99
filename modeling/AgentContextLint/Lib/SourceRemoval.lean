import AgentContextLint.Lib.Arcs
import AgentContextLint.Lib.Sorting

/-!
# Sequencing a graph by removing its sources

Every vertex has a counter of the arcs that enter it. Round after round, of the vertices whose
counter is zero the least is put behind the sequence, and the counters give up its arcs.
-/

namespace SourceRemoval

open Sorting List

variable {α : Type} [DecidableEq α]

structure Progress (α : Type) where
  sequence : List α
  /-- The counter of a vertex. -/
  pending : α → Int
  /-- No round had a choice. -/
  unique : Bool

def entering (arcs : List (α × α)) (source : α → Bool) (vertex : α) : Nat :=
  arcs.countP fun arc => source arc.1 && arc.2 == vertex

def start (arcs : List (α × α)) : Progress α where
  sequence := []
  pending := fun vertex => entering arcs (fun _ => true) vertex
  unique := true

def ready (vertices : List α) (progress : Progress α) : List α :=
  vertices.filter fun vertex => vertex ∉ progress.sequence ∧ progress.pending vertex = 0

def take (arcs : List (α × α)) (progress : Progress α) (current : α) (only : Bool) : Progress α where
  sequence := progress.sequence ++ [current]
  pending := fun vertex => progress.pending vertex - entering arcs (· == current) vertex
  unique := progress.unique && only

/-- A number of rounds, or fewer if none is ready. -/
def run (cmp : α → α → Ordering) (vertices : List α) (arcs : List (α × α)) :
    (rounds : Nat) → Progress α → Progress α
  | 0, progress => progress
  | rounds + 1, progress =>
    match sortBy cmp (ready vertices progress) with
    | [] => progress
    | current :: others =>
      run cmp vertices arcs rounds (take arcs progress current others.isEmpty)

/-! ## What a round keeps -/

/-- The sequence has no vertex twice, and the counters count the arcs from vertices that are not yet
in it. -/
structure Sound (vertices : List α) (arcs : List (α × α)) (progress : Progress α) : Prop where
  nodup : progress.sequence.Nodup
  inside : progress.sequence ⊆ vertices
  pending : ∀ vertex,
    progress.pending vertex = entering arcs (fun source => source ∉ progress.sequence) vertex

variable {cmp : α → α → Ordering} {vertices : List α} {arcs : List (α × α)} {progress : Progress α}

theorem mem_ready {vertex : α} : vertex ∈ ready vertices progress ↔
    vertex ∈ vertices ∧ vertex ∉ progress.sequence ∧ progress.pending vertex = 0 := by
  simp [ready]

theorem Sound.start : Sound vertices arcs (start arcs) where
  nodup := nodup_nil
  inside := nil_subset vertices
  pending := fun vertex => by simp [SourceRemoval.start]

/-- The arcs from outside the sequence are those from its next vertex and those from elsewhere. -/
theorem entering_append {sequence : List α} {current : α} (fresh : current ∉ sequence)
    (vertex : α) : entering arcs (fun source => source ∉ sequence) vertex =
      entering arcs (fun source => source ∉ sequence ++ [current]) vertex +
        entering arcs (· == current) vertex := by
  unfold entering
  induction arcs with
  | nil => rfl
  | cons arc rest ih =>
    simp only [countP_cons]
    rw [ih]
    by_cases here : arc.1 = current
    · have outside : arc.1 ∉ sequence := here ▸ fresh
      simp only [here, mem_append, mem_singleton, or_true, not_true_eq_false,
        decide_false, Bool.false_and, beq_self_eq_true, Bool.true_and]
      rw [decide_eq_true fresh]
      simp only [Bool.true_and, Bool.false_eq_true, if_false]
      omega
    · have same : decide (arc.1 ∉ sequence ++ [current]) = decide (arc.1 ∉ sequence) := by
        simp [here]
      rw [same, beq_eq_false_iff_ne.mpr here]
      simp only [Bool.false_and, Bool.false_eq_true, if_false]
      omega

theorem Sound.take (sound : Sound vertices arcs progress) {current : α}
    (member : current ∈ ready vertices progress) (only : Bool) :
    Sound vertices arcs (take arcs progress current only) := by
  rcases mem_ready.mp member with ⟨inside, fresh, -⟩
  constructor
  · exact nodup_append.mpr ⟨sound.nodup, nodup_singleton current, fun a inFront b last eq =>
      fresh (mem_singleton.mp last ▸ eq ▸ inFront)⟩
  · exact append_subset.mpr ⟨sound.inside, fun vertex last =>
      mem_singleton.mp last ▸ inside⟩
  · intro vertex
    have split : entering arcs (fun source => source ∉ progress.sequence) vertex = _ :=
      entering_append fresh vertex
    have before := sound.pending vertex
    change progress.pending vertex - entering arcs (· == current) vertex =
      (entering arcs (fun source => source ∉ progress.sequence ++ [current]) vertex : Int)
    rw [before, split, Int.natCast_add]
    exact Int.add_sub_cancel _ _

/-! ## Runs -/

/-- Every round takes a vertex that is ready. -/
theorem head_ready {current : α} {others : List α}
    (sorted : sortBy cmp (ready vertices progress) = current :: others) :
    current ∈ ready vertices progress :=
  (mem_sortBy cmp).mp (sorted ▸ mem_cons_self)

section

variable (sound : Sound vertices arcs progress)

include sound

theorem Sound.run (rounds : Nat) : Sound vertices arcs (run cmp vertices arcs rounds progress) := by
  induction rounds generalizing progress with
  | zero => exact sound
  | succ rounds ih =>
    rw [SourceRemoval.run]
    split
    · exact sound
    · next current others sorted => exact ih (sound.take (head_ready sorted) _)

/-- If arcs lead to greater numbers, a vertex is ready as long as one is missing. -/
theorem exists_ready (rank : α → Nat) (increases : ∀ arc ∈ arcs, rank arc.1 < rank arc.2)
    (sources : ∀ arc ∈ arcs, arc.1 ∈ vertices) {missing : α} (member : missing ∈ vertices)
    (outside : missing ∉ progress.sequence) : ready vertices progress ≠ [] := by
  induction least : rank missing using Nat.strong_induction_on generalizing missing with
  | _ n ih =>
    by_cases entered : ∃ arc ∈ arcs, arc.1 ∉ progress.sequence ∧ arc.2 = missing
    · rcases entered with ⟨arc, inArcs, unsequenced, rfl⟩
      exact ih (rank arc.1) (least ▸ increases arc inArcs) (sources arc inArcs) unsequenced rfl
    · have none : entering arcs (fun source => source ∉ progress.sequence) missing = 0 := by
        apply countP_eq_zero.mpr
        intro arc inArcs holds
        have both : arc.1 ∉ progress.sequence ∧ arc.2 = missing := by simpa using holds
        exact entered ⟨arc, inArcs, both⟩
      have zero : progress.pending missing = 0 := by rw [sound.pending, none, Int.natCast_zero]
      exact ne_nil_of_mem (mem_ready.mpr ⟨member, outside, zero⟩)

/-- With enough rounds left, the sequence gets as long as the list of vertices. -/
theorem length_le_run (rank : α → Nat) (increases : ∀ arc ∈ arcs, rank arc.1 < rank arc.2)
    (sources : ∀ arc ∈ arcs, arc.1 ∈ vertices) (distinct : vertices.Nodup) {rounds : Nat}
    (enough : vertices.length ≤ progress.sequence.length + rounds) :
    vertices.length ≤ (run cmp vertices arcs rounds progress).sequence.length := by
  induction rounds generalizing progress with
  | zero => exact enough
  | succ rounds ih =>
    rw [SourceRemoval.run]
    split
    · next stuck =>
        have nothing : ready vertices progress = [] :=
          length_eq_zero_iff.mp ((length_sortBy cmp _).symm.trans (congrArg length stuck))
        have all : vertices ⊆ progress.sequence := fun vertex member => by
          by_contra outside
          exact exists_ready sound rank increases sources member outside nothing
        exact (subperm_of_subset distinct all).length_le
    · next current others sorted =>
        apply ih (sound.take (head_ready sorted) _)
        simp only [SourceRemoval.take, length_append, length_singleton]
        omega

end

/-- If arcs lead to greater numbers, every vertex is sequenced, once. -/
theorem sequence_perm (rank : α → Nat) (increases : ∀ arc ∈ arcs, rank arc.1 < rank arc.2)
    (sources : ∀ arc ∈ arcs, arc.1 ∈ vertices) (distinct : vertices.Nodup) :
    (run cmp vertices arcs vertices.length (start arcs)).sequence.Perm vertices := by
  have sound : Sound vertices arcs (run cmp vertices arcs vertices.length (start arcs)) :=
    Sound.start.run _
  exact (subperm_of_subset sound.nodup sound.inside).perm_of_length_le
    (length_le_run Sound.start rank increases sources distinct (Nat.le_add_left _ _))

end SourceRemoval
