import Mathlib.Algebra.GroupWithZero.Nat
import Mathlib.Data.List.Basic
import Mathlib.Logic.Relation

/-!
# Walks in depth

A depth-first walk over a graph with a stack of frames. A node is entered once, is `visiting` while
the walk is below it, and is `visited` behind its children. A frame for a node that is being visited
is noted in `cycles`.

A walk that notes no cycle visits the successors of a node before the node (`run_sound`), so that no
visited node is on a cycle (`not_transGen_self`). It stays where edges lead (`run_closed`), and it
ends: every step makes the rest of the walk smaller (`step_weight`, `run_done`).
-/

namespace DepthFirst

open List

variable {κ : Type}

structure Frame (κ : Type) where
  entered : Bool
  id : κ
  nextChild : Nat

structure State (κ : Type) where
  stack : List (Frame κ)
  visiting : List κ
  visited : List κ
  cycles : List κ

variable (children : κ → List κ) (known : κ → Bool)

section Walk

variable [DecidableEq κ]

/-- Go on with the next child of an entered frame, or leave its node. -/
def advance (s : State κ) (frame : Frame κ) (rest : List (Frame κ)) : State κ :=
  match (children frame.id)[frame.nextChild]? with
  | some child =>
    let parent := { frame with nextChild := frame.nextChild + 1 } :: rest
    { s with stack := if known child then ⟨false, child, 0⟩ :: parent else parent }
  | none => { s with
      stack := rest
      visiting := s.visiting.erase frame.id
      visited := frame.id :: s.visited }

def step (s : State κ) : State κ :=
  match s.stack with
  | [] => s
  | frame :: rest =>
    if frame.entered then advance children known s frame rest
    else if frame.id ∈ s.visited then { s with stack := rest }
    else if frame.id ∈ s.visiting then { s with stack := rest, cycles := s.cycles ++ [frame.id] }
    else advance children known { s with visiting := frame.id :: s.visiting }
      { frame with entered := true } rest

def run : (fuel : Nat) → State κ → State κ
  | 0, s => s
  | fuel + 1, s => run fuel (step children known s)

def start (root : κ) (s : State κ) : State κ := { s with stack := [⟨false, root, 0⟩] }

end Walk

/-! ## What is visited -/

def Edge (a b : κ) : Prop := b ∈ children a ∧ known b = true

/-- The children of a frame that the walk is behind are visited, or the one that it is in. -/
def Frames (visited : List κ) : (above : Option κ) → List (Frame κ) → Prop
  | _, [] => True
  | above, frame :: rest =>
    (frame.entered = false → frame.nextChild = 0 ∧ above = none) ∧
      (∀ b ∈ (children frame.id).take frame.nextChild, known b = true →
        b ∈ visited ∨ above = some b) ∧
      Frames visited (some frame.id) rest

/-- Nodes are visited behind their successors. -/
structure Sound (s : State κ) : Prop where
  finished : ∀ front a back, s.visited = front ++ a :: back → ∀ b, Edge children known a b → b ∈ back
  frames : Frames children known s.visited none s.stack

variable {children known} {visited : List κ}

theorem Frames.mono {visited' : List κ} (subset : ∀ a ∈ visited, a ∈ visited') :
    ∀ {above : Option κ} {stack : List (Frame κ)}, Frames children known visited above stack →
      Frames children known visited' above stack
  | _, [], _ => trivial
  | _, _ :: _, ⟨fresh, behind, rest⟩ =>
    ⟨fresh, fun b member isKnown => (behind b member isKnown).imp_left (subset b), rest.mono subset⟩

variable {a : κ}

/-- Behind a visited node, the frame below it is on top. -/
theorem Frames.pop {stack : List (Frame κ)} (visitedAbove : a ∈ visited)
    (frames : Frames children known visited (some a) stack) :
    Frames children known visited none stack := by
  cases stack with
  | nil => trivial
  | cons frame rest =>
    obtain ⟨fresh, behind, below⟩ := frames
    refine ⟨fun unentered => ?_, fun b member isKnown => .inl ?_, below⟩
    · cases (fresh unentered).2
    · rcases behind b member isKnown with there | above
      · exact there
      · exact Option.some.inj above ▸ visitedAbove

variable [DecidableEq κ] {s : State κ} {rest : List (Frame κ)}
  {fuel : Nat} {R : κ → Prop} {nodes : List κ} {frame : Frame κ}

theorem advance_sound (finished : ∀ front a back, s.visited = front ++ a :: back →
      ∀ b, Edge children known a b → b ∈ back)
    (frames : Frames children known s.visited none (frame :: rest)) (entered : frame.entered = true) :
    Sound children known (advance children known s frame rest) := by
  obtain ⟨-, behind, below⟩ := frames
  have visitedBehind : ∀ b ∈ (children frame.id).take frame.nextChild, known b = true →
      b ∈ s.visited := fun b member isKnown => (behind b member isKnown).resolve_right nofun
  have notFresh : ∀ above, frame.entered = false →
      frame.nextChild + 1 = 0 ∧ (above : Option κ) = none := fun above unentered => by
    rw [entered] at unentered
    cases unentered
  unfold advance
  cases next : (children frame.id)[frame.nextChild]? with
  | some child =>
    have taken : (children frame.id).take (frame.nextChild + 1) =
        (children frame.id).take frame.nextChild ++ [child] := by
      rw [take_add_one, next]
      rfl
    dsimp only
    split_ifs with isKnown
    · refine ⟨finished, fun _ => ⟨rfl, rfl⟩, nofun, notFresh _, fun b member isKnown' => ?_, below⟩
      rw [taken, mem_append, mem_singleton] at member
      rcases member with before | rfl
      · exact .inl (visitedBehind b before isKnown')
      · exact .inr rfl
    · refine ⟨finished, ?_⟩
      refine ⟨notFresh _, fun b member isKnown' => ?_, below⟩
      rw [taken, mem_append, mem_singleton] at member
      rcases member with before | rfl
      · exact .inl (visitedBehind b before isKnown')
      · exact absurd isKnown' isKnown
  | none =>
    have all : (children frame.id).take frame.nextChild = children frame.id :=
      take_of_length_le (getElem?_eq_none_iff.mp next)
    rw [all] at visitedBehind
    refine ⟨fun front a back split b edge => ?_, ?_⟩
    · cases front with
      | nil =>
        obtain ⟨rfl, rfl⟩ := cons.inj split
        exact visitedBehind b edge.1 edge.2
      | cons first front => exact finished front a back (cons.inj split).2 b edge
    · exact (below.mono fun a member => mem_cons_of_mem _ member).pop mem_cons_self

/-- A step that notes no cycle keeps the order of the visits. -/
theorem step_sound (sound : Sound children known s)
    (noCycle : (step children known s).cycles = []) : Sound children known (step children known s) := by
  obtain ⟨finished, frames⟩ := sound
  unfold step at noCycle ⊢
  cases stack : s.stack with
  | nil => exact ⟨finished, frames⟩
  | cons frame rest =>
    rw [stack] at frames noCycle
    dsimp only at noCycle ⊢
    split_ifs at noCycle ⊢ with entered visited visiting
    · exact advance_sound finished frames entered
    · exact ⟨finished, frames.2.2.pop visited⟩
    · exact absurd noCycle (append_ne_nil_of_right_ne_nil _ (cons_ne_nil _ _))
    · exact advance_sound finished ⟨nofun, frames.2⟩ rfl

theorem cycles_advance (s : State κ) (frame : Frame κ) (rest : List (Frame κ)) :
    (advance children known s frame rest).cycles = s.cycles := by
  unfold advance
  cases (children frame.id)[frame.nextChild]? <;> rfl

theorem cycles_step (s : State κ) : ∃ more, (step children known s).cycles = s.cycles ++ more := by
  unfold step
  cases s.stack with
  | nil => exact ⟨[], (append_nil _).symm⟩
  | cons frame rest =>
    dsimp only
    split_ifs
    · exact ⟨[], by rw [cycles_advance, append_nil]⟩
    · exact ⟨[], (append_nil _).symm⟩
    · exact ⟨[frame.id], rfl⟩
    · exact ⟨[], by rw [cycles_advance, append_nil]⟩

theorem cycles_run (fuel : Nat) (s : State κ) :
    ∃ more, (run children known fuel s).cycles = s.cycles ++ more := by
  induction fuel generalizing s with
  | zero => exact ⟨[], (append_nil _).symm⟩
  | succ fuel ih =>
    obtain ⟨first, stepped⟩ := cycles_step s
    obtain ⟨later, ran⟩ := ih (step children known s)
    exact ⟨first ++ later, by rw [run, ran, stepped, append_assoc]⟩

/-- A walk that notes no cycle visits nodes behind their successors. -/
theorem run_sound (sound : Sound children known s)
    (noCycle : (run children known fuel s).cycles = []) :
    Sound children known (run children known fuel s) := by
  induction fuel generalizing s with
  | zero => exact sound
  | succ fuel ih =>
    obtain ⟨more, ran⟩ : ∃ more, (run children known fuel (step children known s)).cycles = _ ++ more :=
      cycles_run fuel (step children known s)
    rw [run] at noCycle
    rw [noCycle] at ran
    exact ih (step_sound sound (append_eq_nil_iff.mp ran.symm).1) noCycle

omit [DecidableEq κ] in
/-- No visited node reaches itself, and what it reaches is visited. -/
theorem not_transGen_self
    (finished : ∀ front a back, visited = front ++ a :: back → ∀ b, Edge children known a b → b ∈ back) :
    ∀ a ∈ visited, ¬ Relation.TransGen (Edge children known) a a ∧
      ∀ b, Relation.TransGen (Edge children known) a b → b ∈ visited := by
  induction visited with
  | nil => exact fun a member => by cases member
  | cons first rest ih =>
    have later := ih fun front a back split => finished (first :: front) a back (by rw [split]; rfl)
    have below : ∀ b, Relation.TransGen (Edge children known) first b → b ∈ rest := by
      intro b path
      obtain ⟨c, edge, tail⟩ := Relation.TransGen.head'_iff.mp path
      have inRest := finished [] first rest rfl c edge
      rcases Relation.reflTransGen_iff_eq_or_transGen.mp tail with rfl | tail
      · exact inRest
      · exact (later c inRest).2 b tail
    intro a member
    rcases mem_cons.mp member with rfl | inRest
    · exact ⟨fun cycle => (later a (below a cycle)).1 cycle,
        fun b path => mem_cons_of_mem _ (below b path)⟩
    · exact ⟨(later a inRest).1, fun b path => mem_cons_of_mem _ ((later a inRest).2 b path)⟩

/-! ## Where the walk leads -/

/-- Everything on the stack and everything visited has a property. -/
structure Within (R : κ → Prop) (s : State κ) : Prop where
  stack : ∀ frame ∈ s.stack, R frame.id
  visited : ∀ a ∈ s.visited, R a

section

variable (closed : ∀ a b, R a → Edge children known a b → R b)

include closed

theorem advance_within (here : R frame.id) (below : ∀ frame ∈ rest, R frame.id)
    (visited : ∀ a ∈ s.visited, R a) : Within R (advance children known s frame rest) := by
  unfold advance
  cases next : (children frame.id)[frame.nextChild]? with
  | some child =>
    refine ⟨?_, visited⟩
    have parents : ∀ f ∈ { frame with nextChild := frame.nextChild + 1 } :: rest, R f.id :=
      forall_mem_cons.mpr ⟨here, below⟩
    dsimp only
    split_ifs with isKnown
    · exact forall_mem_cons.mpr
        ⟨closed frame.id child here ⟨mem_of_getElem? next, isKnown⟩, parents⟩
    · exact parents
  | none => exact ⟨below, forall_mem_cons.mpr ⟨here, visited⟩⟩

/-- What edges keep is kept by the walk. -/
theorem step_within (within : Within R s) : Within R (step children known s) := by
  obtain ⟨onStack, visited⟩ := within
  unfold step
  cases stack : s.stack with
  | nil => exact ⟨onStack, visited⟩
  | cons frame rest =>
    rw [stack] at onStack
    obtain ⟨here, below⟩ := forall_mem_cons.mp onStack
    dsimp only
    split_ifs
    · exact advance_within closed here below visited
    · exact ⟨below, visited⟩
    · exact ⟨below, visited⟩
    · exact advance_within closed here below visited

theorem run_within (within : Within R s) : Within R (run children known fuel s) := by
  induction fuel generalizing s with
  | zero => exact within
  | succ fuel ih => exact ih (step_within closed within)

end

/-! ## The end of the walk -/

/-- The steps that the children of a node take. -/
def nodeWeight (children : κ → List κ) (a : κ) : Nat := 2 * (children a).length + 1

def frameWeight (children : κ → List κ) (frame : Frame κ) : Nat :=
  if frame.entered then 2 * ((children frame.id).length - frame.nextChild) + 1 else 1

/-- The steps that are left, where `nodes` holds all nodes of the walk. -/
def weight (children : κ → List κ) (nodes : List κ) (s : State κ) : Nat :=
  (s.stack.map (frameWeight children)).sum +
    ((nodes.filter fun a => a ∉ s.visiting ∧ a ∉ s.visited).map (nodeWeight children)).sum

omit [DecidableEq κ] in
theorem sum_filter_le {test other : κ → Bool} (implies : ∀ a, test a = true → other a = true)
    (nodes : List κ) (f : κ → Nat) :
    ((nodes.filter test).map f).sum ≤ ((nodes.filter other).map f).sum := by
  induction nodes with
  | nil => exact Nat.le_refl _
  | cons b rest ih =>
    have here := implies b
    cases first : test b <;> cases second : other b <;> simp_all
    omega

theorem sum_filter_remove (test : κ → Bool) (member : a ∈ nodes) (passes : test a = true)
    (f : κ → Nat) :
    ((nodes.filter fun b => test b && b != a).map f).sum + f a ≤ ((nodes.filter test).map f).sum := by
  induction nodes with
  | nil => cases member
  | cons b rest ih =>
    have implies : ∀ c, (test c && c != a) = true → test c = true := fun c both =>
      (Bool.and_eq_true _ _ ▸ both).1
    by_cases same : b = a
    · subst same
      have smaller := sum_filter_le implies rest f
      simp [passes]
      omega
    · have smaller := ih ((mem_cons.mp member).resolve_left (Ne.symm same))
      cases here : test b <;> simp [here, same] <;> omega

theorem advance_weight (nodes : List κ) (s : State κ) (entered : frame.entered = true) :
    weight children nodes (advance children known s frame rest) <
      weight children nodes { s with stack := frame :: rest } := by
  unfold advance weight
  cases next : (children frame.id)[frame.nextChild]? with
  | some child =>
    have inside := (List.getElem?_eq_some_iff.mp next).1
    dsimp only
    split_ifs
    · simp only [map_cons, sum_cons, frameWeight, entered, if_true]
      simp only [Bool.false_eq_true, if_false]
      omega
    · simp only [map_cons, sum_cons, frameWeight, entered, if_true]
      omega
  | none =>
    dsimp only
    have implies : ∀ a, decide (a ∉ s.visiting.erase frame.id ∧ a ∉ frame.id :: s.visited) = true →
        decide (a ∉ s.visiting ∧ a ∉ s.visited) = true := fun a holds => by
      rw [decide_eq_true_eq, mem_cons, not_or] at holds
      obtain ⟨visiting, apart, visited⟩ := holds
      exact decide_eq_true
        ⟨fun member => visiting ((mem_erase_of_ne apart).mpr member), visited⟩
    have pool := sum_filter_le implies nodes (nodeWeight children)
    simp only [map_cons, sum_cons, frameWeight, entered, if_true]
    omega

/-- Every step of a walk that goes on makes the rest of it smaller. -/
theorem step_weight (within : Within (· ∈ nodes) s) (unfinished : s.stack ≠ []) :
    weight children nodes (step children known s) < weight children nodes s := by
  unfold step
  cases stack : s.stack with
  | nil => exact absurd stack unfinished
  | cons frame rest =>
    have whole : s = { s with stack := frame :: rest } := by rw [← stack]
    have popped : weight children nodes { s with stack := rest } < weight children nodes s := by
      conv_rhs => rw [whole]
      simp only [weight, map_cons, sum_cons]
      have positive : 0 < frameWeight children frame := by unfold frameWeight; split_ifs <;> omega
      omega
    dsimp only
    split_ifs with entered visited visiting
    · conv_rhs => rw [whole]
      exact advance_weight nodes s entered
    · exact popped
    · exact popped
    · -- the weight of the node moves from the pool to its frame
      refine Nat.lt_of_lt_of_le (advance_weight nodes _ rfl) ?_
      have inNodes := within.stack frame (stack ▸ mem_cons_self)
      have moved := sum_filter_remove (fun a => decide (a ∉ s.visiting ∧ a ∉ s.visited)) inNodes
        (decide_eq_true ⟨visiting, visited⟩) (nodeWeight children)
      have same : (fun a => decide (a ∉ frame.id :: s.visiting ∧ a ∉ s.visited)) =
          fun a => decide (a ∉ s.visiting ∧ a ∉ s.visited) && a != frame.id := by
        funext a
        by_cases eq : a = frame.id <;> simp [eq]
      conv_rhs => rw [whole]
      simp only [weight, map_cons, sum_cons, frameWeight, same, if_true, entered]
      simp only [Bool.false_eq_true, if_false]
      unfold nodeWeight at moved ⊢
      omega

theorem run_of_done (done : s.stack = []) : run children known fuel s = s := by
  induction fuel with
  | zero => rfl
  | succ fuel ih =>
    have stays : step children known s = s := by rw [step, done]
    rw [run, stays, ih]

/-- The walk ends. -/
theorem run_done (knownListed : ∀ a, known a = true → a ∈ nodes) (within : Within (· ∈ nodes) s) (enough : weight children nodes s ≤ fuel) :
    (run children known fuel s).stack = [] := by
  induction fuel generalizing s with
  | zero =>
    by_contra unfinished
    have less : weight children nodes (step children known s) < _ := step_weight within unfinished
    omega
  | succ fuel ih =>
    by_cases done : s.stack = []
    · rw [run_of_done done, done]
    · have less : weight children nodes (step children known s) < _ := step_weight within done
      exact ih (step_within (fun _ b _ edge => knownListed b edge.2) within) (by omega)

end DepthFirst
