import Mathlib.Data.List.Nodup
import Mathlib.Order.Nat

/-!
# Forests of parent pointers

Disjoint sets, kept as a list of parents in which a root is its own parent and no parent is greater
than its child.

* `Climbs parent x root`: the parents lead from `x` to `root`. Each element has one root
  (`exists_climbs`, `Climbs.unique`).
* Pointing an element to its root changes no root (`Climbs.compress`). Pointing a root to another
  root changes the roots of its elements only (`Climbs.link`).
-/

namespace ParentForest

open List
open Relation (EqvGen TransGen)

variable {parent : List Nat} {x y p root other : Nat} {links : List (Nat × Nat)} {others : List Nat}

/-- No parent is greater than its child. -/
def Shrinking (parent : List Nat) : Prop :=
  ∀ (x p : Nat), parent[x]? = some p → p ≤ x

inductive Climbs (parent : List Nat) : Nat → Nat → Prop
  | root {x : Nat} (own : parent[x]? = some x) : Climbs parent x x
  | step {x p root : Nat} (above : parent[x]? = some p) (apart : p ≠ x)
      (rest : Climbs parent p root) : Climbs parent x root

theorem Climbs.isRoot (climbs : Climbs parent x root) : parent[root]? = some root := by
  induction climbs with
  | root own => exact own
  | step _ _ _ ih => exact ih

theorem Climbs.lt_length (climbs : Climbs parent x root) : x < parent.length := by
  cases climbs with
  | root own => exact (List.getElem?_eq_some_iff.mp own).1
  | step above _ _ => exact (List.getElem?_eq_some_iff.mp above).1

theorem Climbs.unique (climbs : Climbs parent x root) (others : Climbs parent x other) :
    root = other := by
  induction climbs with
  | root own =>
    cases others with
    | root _ => rfl
    | step above apart _ => exact absurd (Option.some.inj (above.symm.trans own)) apart
  | step above apart _ ih =>
    cases others with
    | root own => exact absurd (Option.some.inj (above.symm.trans own)) apart
    | step also _ rest =>
      cases Option.some.inj (above.symm.trans also)
      exact ih rest

theorem Climbs.le (shrinking : Shrinking parent) (climbs : Climbs parent x root) : root ≤ x := by
  induction climbs with
  | root _ => exact Nat.le_refl _
  | step above _ _ ih => exact ih.trans (shrinking _ _ above)

theorem exists_climbs (shrinking : Shrinking parent) (inside : x < parent.length) :
    ∃ root, Climbs parent x root := by
  induction x using Nat.strongRecOn with
  | ind x ih =>
    have above : parent[x]? = some parent[x] := getElem?_eq_getElem inside
    by_cases own : parent[x] = x
    · exact ⟨x, .root (above.trans (congrArg some own))⟩
    · have less : parent[x] < x := Nat.lt_of_le_of_ne (shrinking _ _ above) own
      rcases ih _ less (less.trans inside) with ⟨root, rest⟩
      exact ⟨root, .step above own rest⟩

/-! ## Pointing to a root -/

theorem Shrinking.set (shrinking : Shrinking parent) (lower : p ≤ x) :
    Shrinking (parent.set x p) := by
  intro y q found
  rw [getElem?_set] at found
  split_ifs at found with here inside
  · cases found
    exact here ▸ lower
  · exact shrinking y q found

theorem getElem?_set_of_ne (apart : x ≠ y) : (parent.set x p)[y]? = parent[y]? := by
  rw [getElem?_set, if_neg apart]

/-- An element may point to its root at once. -/
theorem Climbs.compress (climbs : Climbs parent x root) (others : Climbs parent y other) :
    Climbs (parent.set x root) y other := by
  have inside := climbs.lt_length
  induction others with
  | @root y own =>
    by_cases here : x = y
    · subst here
      have same := climbs.unique (.root own)
      exact .root (by rw [getElem?_set, if_pos rfl, if_pos inside, same])
    · exact .root ((getElem?_set_of_ne here).trans own)
  | @step y p other above apart rest ih =>
    by_cases here : x = y
    · subst here
      have same := climbs.unique (.step above apart rest)
      subst same
      have moved : root ≠ x := by
        intro eq
        rw [eq] at climbs
        exact apart (Option.some.inj (above.symm.trans climbs.isRoot))
      have points : (parent.set x root)[x]? = some root := by
        rw [getElem?_set, if_pos rfl, if_pos inside]
      exact .step points moved (.root ((getElem?_set_of_ne moved.symm).trans climbs.isRoot))
    · exact .step ((getElem?_set_of_ne here).trans above) apart ih

/-- A root that points to another one takes its elements with it. -/
theorem Climbs.link (isRoot : parent[x]? = some x) (toRoot : parent[root]? = some root)
    (apart : root ≠ x) (others : Climbs parent y other) :
    Climbs (parent.set x root) y (if other = x then root else other) := by
  have inside : x < parent.length := (List.getElem?_eq_some_iff.mp isRoot).1
  induction others with
  | @root y own =>
    by_cases here : y = x
    · rw [if_pos here, here]
      have points : (parent.set x root)[x]? = some root := by
        rw [getElem?_set, if_pos rfl, if_pos inside]
      exact .step points apart (.root ((getElem?_set_of_ne apart.symm).trans toRoot))
    · rw [if_neg here]
      exact .root ((getElem?_set_of_ne (Ne.symm here)).trans own)
  | @step y p other above moved rest ih =>
    have here : x ≠ y := by
      intro eq
      subst eq
      exact moved (Option.some.inj (above.symm.trans isRoot))
    exact .step ((getElem?_set_of_ne here).trans above) moved ih

/-! ## Joined elements -/

/-- A path of links, in either direction, joins two elements. -/
def Connected (links : List (Nat × Nat)) : Nat → Nat → Prop :=
  EqvGen fun x y => (x, y) ∈ links

theorem Connected.symm (connected : Connected links x y) : Connected links y x :=
  EqvGen.symm _ _ connected

theorem Connected.trans {z : Nat} (first : Connected links x y) (second : Connected links y z) :
    Connected links x z := EqvGen.trans _ _ _ first second

theorem Connected.mono {more : List (Nat × Nat)} (within : links ⊆ more)
    (connected : Connected links x y) : Connected more x y :=
  EqvGen.mono (fun _ _ member => within member) _ _ connected

/-- Two elements are one, or have one root. -/
def SameRoot (parent : List Nat) (x y : Nat) : Prop :=
  x = y ∨ ∃ root, Climbs parent x root ∧ Climbs parent y root

theorem SameRoot.symm (same : SameRoot parent x y) : SameRoot parent y x := by
  rcases same with rfl | ⟨root, first, second⟩
  · exact .inl rfl
  · exact .inr ⟨root, second, first⟩

theorem SameRoot.trans {z : Nat} (first : SameRoot parent x y) (second : SameRoot parent y z) :
    SameRoot parent x z := by
  rcases first with rfl | ⟨root, fromX, fromY⟩
  · exact second
  · rcases second with rfl | ⟨other, alsoFromY, fromZ⟩
    · exact .inr ⟨root, fromX, fromY⟩
    · cases fromY.unique alsoFromY
      exact .inr ⟨root, fromX, fromZ⟩

/-- Links between elements with one root join no others. -/
theorem SameRoot.of_connected (each : ∀ link ∈ links, SameRoot parent link.1 link.2)
    (connected : Connected links x y) : SameRoot parent x y := by
  induction connected with
  | rel _ _ member => exact each _ member
  | refl _ => exact .inl rfl
  | symm _ _ _ ih => exact ih.symm
  | trans _ _ _ _ _ first second => exact first.trans second

/-- The elements with one root are those that are joined. -/
structure Represents (links : List (Nat × Nat)) (parent : List Nat) : Prop where
  shrinking : Shrinking parent
  same : ∀ x y, SameRoot parent x y ↔ Connected links x y

theorem represents_range (n : Nat) : Represents [] (range n) := by
  have own : ∀ (x p : Nat), (range n)[x]? = some p → p = x := by
    intro x p found
    rcases List.getElem?_eq_some_iff.mp found with ⟨inside, eq⟩
    rw [getElem_range] at eq
    exact eq.symm
  have itself : ∀ x root, Climbs (range n) x root → root = x := by
    intro x root climbs
    cases climbs with
    | root _ => rfl
    | step above apart _ => exact absurd (own _ _ above) apart
  refine ⟨fun x p found => (own x p found).le, fun x y => ⟨fun same => ?_, ?_⟩⟩
  · rcases same with rfl | ⟨root, first, second⟩
    · exact EqvGen.refl _
    · rw [← itself x root first, ← itself y root second]
      exact EqvGen.refl _
  · exact SameRoot.of_connected fun _ member => by cases member

/-- The parents have changed, but no root. -/
structure Keeps (parent others : List Nat) : Prop where
  length : others.length = parent.length
  shrinking : Shrinking parent → Shrinking others
  climbs : ∀ {x root}, Climbs parent x root → Climbs others x root

theorem Keeps.refl (parent : List Nat) : Keeps parent parent := ⟨rfl, id, id⟩

theorem Keeps.trans {third : List Nat} (first : Keeps parent others)
    (second : Keeps others third) : Keeps parent third :=
  ⟨second.length.trans first.length, second.shrinking ∘ first.shrinking,
    fun climbs => second.climbs (first.climbs climbs)⟩

theorem Climbs.keeps (shrinking : Shrinking parent) (climbs : Climbs parent x root) :
    Keeps parent (parent.set x root) :=
  ⟨length_set, fun _ => shrinking.set (climbs.le shrinking), climbs.compress⟩

/-- A root behind the change was one before it. -/
theorem Keeps.climbs_iff (keeps : Keeps parent others)
    (shrinking : Shrinking parent) : Climbs others x root ↔ Climbs parent x root := by
  refine ⟨fun climbs => ?_, keeps.climbs⟩
  rcases exists_climbs shrinking (keeps.length ▸ climbs.lt_length) with ⟨old, fromX⟩
  cases climbs.unique (keeps.climbs fromX)
  exact fromX

section

variable (represents : Represents links parent)

include represents

theorem Represents.of_keeps (keeps : Keeps parent others) : Represents links others := by
  refine ⟨keeps.shrinking represents.shrinking, fun y z => ?_⟩
  rw [← represents.same]
  unfold SameRoot
  simp only [keeps.climbs_iff represents.shrinking]

/-- Pointing one root to another adds a link between any of their elements. -/
theorem Represents.link (climbs : Climbs parent x root) (others : Climbs parent y other)
    (lower : root < other) : Represents ((x, y) :: links) (parent.set other root) := by
  have isOther := others.isRoot
  have apart : root ≠ other := lower.ne
  have moved : ∀ {z top}, Climbs parent z top →
      Climbs (parent.set other root) z (if top = other then root else top) :=
    fun fromZ => Climbs.link isOther climbs.isRoot apart fromZ
  have joined : ∀ {z w}, SameRoot parent z w → SameRoot (parent.set other root) z w := by
    intro z w same
    rcases same with rfl | ⟨top, first, second⟩
    · exact .inl rfl
    · exact .inr ⟨_, moved first, moved second⟩
  refine ⟨represents.shrinking.set lower.le, fun z w => ⟨fun same => ?_, ?_⟩⟩
  · rcases same with rfl | ⟨top, first, second⟩
    · exact EqvGen.refl _
    · have inZ := first.lt_length
      have inW := second.lt_length
      rw [length_set] at inZ inW
      rcases exists_climbs represents.shrinking inZ with ⟨rootZ, fromZ⟩
      rcases exists_climbs represents.shrinking inW with ⟨rootW, fromW⟩
      have old : ∀ {a b top}, Climbs parent a top → Climbs parent b top →
          Connected ((x, y) :: links) a b := fun fromA fromB =>
        ((represents.same _ _).mp (.inr ⟨_, fromA, fromB⟩)).mono (subset_cons_self _ _)
      have new : Connected ((x, y) :: links) x y := EqvGen.rel _ _ mem_cons_self
      have tops := (moved fromZ).unique first |>.trans (second.unique (moved fromW))
      split_ifs at tops with atZ atW atW
      · subst atZ
        subst atW
        exact old fromZ fromW
      · subst atZ
        subst tops
        exact ((old fromZ others).trans new.symm).trans (old climbs fromW)
      · subst atW
        subst tops
        exact ((old fromZ climbs).trans new).trans (old others fromW)
      · subst tops
        exact old fromZ fromW
  · apply SameRoot.of_connected
    intro link member
    rcases mem_cons.mp member with rfl | before
    · have first := moved climbs
      have second := moved others
      rw [if_neg apart] at first
      rw [if_pos rfl] at second
      exact .inr ⟨root, first, second⟩
    · exact joined ((represents.same _ _).mpr (EqvGen.rel _ _ before))

/-- A link between elements with one root joins nothing. -/
theorem Represents.idle (climbs : Climbs parent x root)
    (others : Climbs parent y root) : Represents ((x, y) :: links) parent := by
  refine ⟨represents.shrinking, fun z w => ⟨fun same => ?_, ?_⟩⟩
  · exact ((represents.same z w).mp same).mono (subset_cons_self _ _)
  · apply SameRoot.of_connected
    intro link member
    rcases mem_cons.mp member with rfl | before
    · exact .inr ⟨root, climbs, others⟩
    · exact (represents.same _ _).mpr (EqvGen.rel _ _ before)

/-- Other links may join the same elements. -/
theorem Represents.congr {others : List (Nat × Nat)}
    (same : ∀ x y, Connected links x y ↔ Connected others x y) : Represents others parent :=
  ⟨represents.shrinking, fun x y => (represents.same x y).trans (same x y)⟩

end

theorem connected_swap : Connected ((x, y) :: links) root other ↔
    Connected ((y, x) :: links) root other := by
  have oneWay : ∀ {a b z w}, Connected ((a, b) :: links) z w → Connected ((b, a) :: links) z w := by
    intro a b z w connected
    induction connected with
    | rel _ _ member =>
      rcases mem_cons.mp member with new | old
      · cases new
        exact Connected.symm (EqvGen.rel _ _ mem_cons_self)
      · exact EqvGen.rel _ _ (mem_cons_of_mem _ old)
    | refl _ => exact EqvGen.refl _
    | symm _ _ _ ih => exact ih.symm
    | trans _ _ _ _ _ first second => exact first.trans second
  exact ⟨oneWay, oneWay⟩

/-- A path of at least one link, each in either direction. -/
def Path (links : List (Nat × Nat)) : Nat → Nat → Prop :=
  TransGen fun x y => (x, y) ∈ links ∨ (y, x) ∈ links

def Touched (links : List (Nat × Nat)) (x : Nat) : Prop :=
  ∃ link ∈ links, link.1 = x ∨ link.2 = x

theorem Path.symm (path : Path links x y) : Path links y x := by
  induction path with
  | single step => exact .single step.symm
  | tail _ step ih => exact .head step.symm ih

theorem Path.touched (path : Path links x y) : Touched links x := by
  rcases TransGen.head'_iff.mp path with ⟨z, step, _⟩
  rcases step with forwards | backwards
  · exact ⟨_, forwards, .inl rfl⟩
  · exact ⟨_, backwards, .inr rfl⟩

theorem Touched.path (touched : Touched links x) : Path links x x := by
  rcases touched with ⟨link, member, rfl | rfl⟩
  · exact .tail (.single (.inl member)) (.inr member)
  · exact .tail (.single (.inr member)) (.inl member)

theorem path_iff : Path links x y ↔ Touched links x ∧ Connected links x y := by
  constructor
  · intro path
    refine ⟨path.touched, ?_⟩
    induction path with
    | single step =>
      rcases step with forwards | backwards
      · exact EqvGen.rel _ _ forwards
      · exact Connected.symm (EqvGen.rel _ _ backwards)
    | tail _ step ih =>
      rcases step with forwards | backwards
      · exact ih.trans (EqvGen.rel _ _ forwards)
      · exact ih.trans (Connected.symm (EqvGen.rel _ _ backwards))
  · intro both
    rcases both with ⟨touched, connected⟩
    have either : x = y ∨ Path links x y := by
      clear touched
      induction connected with
      | rel _ _ member => exact .inr (.single (.inl member))
      | refl _ => exact .inl rfl
      | symm _ _ _ ih => exact ih.imp Eq.symm Path.symm
      | trans _ _ _ _ _ first second =>
        rcases first with rfl | first
        · exact second
        · rcases second with rfl | second
          · exact .inr first
          · exact .inr (first.trans second)
    rcases either with rfl | path
    · exact touched.path
    · exact path

end ParentForest
