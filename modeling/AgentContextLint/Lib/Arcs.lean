import Mathlib.Data.List.Nodup
import Mathlib.Data.List.Perm.Basic

/-!
# Finite graphs given by lists of arcs

Rooted trees and acyclic graphs, for programs that report a graph as a list of arcs. A graph
is acyclic when some list without repetitions has the target of every arc before its source;
for a traversal, the order in which it finishes its vertices is such a list.
-/

namespace Arcs

open Relation (TransGen)

variable {α : Type} {order : List α} {arcs : List (α × α)} {a b : α}

/-- `a` stands before `b` in the list. -/
def Before (order : List α) (a b : α) : Prop := [a, b].Sublist order

/-- No arcs lead back to where they start. -/
def Acyclic (arcs : List (α × α)) : Prop :=
  ∀ a, ¬ TransGen (fun source target => (source, target) ∈ arcs) a a

/-- The arcs are those of a tree: the root is entered by none of them, every other vertex by
one, and every vertex is reached from the root. -/
structure IsRootedTree (root : α) (vertices : List α) (arcs : List (α × α)) : Prop where
  nodup : vertices.Nodup
  entered : (root :: arcs.map (·.2)).Perm vertices
  sources : ∀ arc ∈ arcs, arc.1 ∈ vertices
  reached : ∀ vertex ∈ vertices,
    Relation.ReflTransGen (fun source target => (source, target) ∈ arcs) root vertex

/-! ## Order -/

theorem Before.append_left (before : Before order a b)
    (first : List α) : Before (first ++ order) a b :=
  List.Sublist.trans before (List.sublist_append_right first order)

theorem Before.append_right (before : Before order a b)
    (last : List α) : Before (order ++ last) a b :=
  List.Sublist.trans before (List.sublist_append_left order last)

theorem before_append_cons {first last : List α} (member : a ∈ first) :
    Before (first ++ b :: last) a b :=
  List.Sublist.append (List.singleton_sublist.mpr member)
    (List.Sublist.cons_cons b (List.nil_sublist last))

theorem Before.mem_left (before : Before order a b) : a ∈ order :=
  before.subset List.mem_cons_self

theorem Before.mem_right (before : Before order a b) : b ∈ order :=
  before.subset (List.mem_cons_of_mem a List.mem_cons_self)

theorem Before.irrefl {a : α} (nodup : order.Nodup) : ¬ Before order a a :=
  fun before => by simpa using nodup.sublist before

theorem Before.trans {a b c : α} (nodup : order.Nodup)
    (first : Before order a b) (second : Before order b c) : Before order a c := by
  induction order with
  | nil => cases first
  | cons x rest ih =>
    have ⟨fresh, restNodup⟩ := List.nodup_cons.mp nodup
    have later : Before rest b c := by
      cases second with
      | cons _ later => exact later
      | cons_cons _ tail =>
        cases first with
        | cons _ first => exact absurd (Before.mem_right first) fresh
        | cons_cons _ inTail => exact absurd (List.singleton_sublist.mp inTail) fresh
    cases first with
    | cons _ first => exact (ih restNodup first later).cons x
    | cons_cons _ _ =>
      exact List.Sublist.cons_cons _ (List.singleton_sublist.mpr (Before.mem_right later))

theorem Acyclic.subset {arcs others : List (α × α)} (acyclic : Acyclic arcs)
    (within : others ⊆ arcs) : Acyclic others :=
  fun a cycle => acyclic a (TransGen.mono (fun _ _ member => within member) a a cycle)

/-- A path leads from one vertex to another. -/
def Reaches (arcs : List (α × α)) : α → α → Prop :=
  TransGen fun source target => (source, target) ∈ arcs

theorem reaches_subset {arcs others : List (α × α)} (within : arcs ⊆ others)
    (path : Reaches arcs a b) : Reaches others a b :=
  TransGen.mono (fun _ _ member => within member) a b path

theorem reaches_cons {a b x y : α} (path : Reaches ((a, b) :: arcs) x y) :
    Reaches arcs x y ∨ (x = a ∨ Reaches arcs x a) ∧ (b = y ∨ Reaches arcs b y) := by
  have step : ∀ {x y}, (x, y) ∈ (a, b) :: arcs → x = a ∧ y = b ∨ (x, y) ∈ arcs := by
    intro x y member
    rcases List.mem_cons.mp member with new | old
    · exact .inl (Prod.mk.inj new)
    · exact .inr old
  induction path with
  | single arc =>
    rcases step arc with ⟨rfl, rfl⟩ | old
    · exact .inr ⟨.inl rfl, .inl rfl⟩
    · exact .inl (.single old)
  | tail _ arc ih =>
    rcases step arc with ⟨rfl, rfl⟩ | old
    · rcases ih with before | ⟨before, _⟩
      · exact .inr ⟨.inr before, .inl rfl⟩
      · exact .inr ⟨before, .inl rfl⟩
    · rcases ih with before | ⟨before, rfl | after⟩
      · exact .inl (before.tail old)
      · exact .inr ⟨before, .inr (.single old)⟩
      · exact .inr ⟨before, .inr (after.tail old)⟩

/-- An arc closes a cycle only if there is a path back. -/
theorem Acyclic.cons (acyclic : Acyclic arcs) (apart : a ≠ b)
    (noReturn : ¬ Reaches arcs b a) : Acyclic ((a, b) :: arcs) := by
  intro x cycle
  rcases reaches_cons cycle with old | ⟨before, after⟩
  · exact acyclic x old
  · rcases before with rfl | before
    · rcases after with eq | after
      · exact apart eq.symm
      · exact noReturn after
    · rcases after with rfl | after
      · exact noReturn before
      · exact noReturn (after.trans before)

/-- A graph whose vertices are in an order, targets first, has no cycles. -/
theorem acyclic_of_before (nodup : order.Nodup)
    (ordered : ∀ arc ∈ arcs, Before order arc.2 arc.1) : Acyclic arcs := by
  have before : ∀ {a b}, TransGen (fun source target => (source, target) ∈ arcs) a b →
      Before order b a := by
    intro a b path
    induction path with
    | single arc => exact ordered _ arc
    | tail _ arc ih => exact (ordered _ arc).trans nodup ih
  exact fun a cycle => Before.irrefl nodup (before cycle)

/-- A graph whose arcs all lead to a greater number has no cycles. -/
theorem acyclic_of_rank (rank : α → Nat)
    (increases : ∀ arc ∈ arcs, rank arc.1 < rank arc.2) : Acyclic arcs := by
  have less : ∀ {a b}, TransGen (fun source target => (source, target) ∈ arcs) a b →
      rank a < rank b := by
    intro a b path
    induction path with
    | single arc => exact increases _ arc
    | tail _ arc ih => exact Nat.lt_trans ih (increases _ arc)
  exact fun a cycle => Nat.lt_irrefl _ (less cycle)

end Arcs
