import Mathlib.Data.List.Basic

/-!
# Greedy filling

Items are put into groups in order: an item goes to the open group if it fits there, and else it
opens the next one. An empty group takes every item. Every item is in one group (`flatten_fill`),
and what single items have and fitting items keep holds of every group (`forall_fill`).
-/

namespace AgentContextLint.GreedyFill

open List

variable {α : Type}

structure Filling (α : Type) where
  done : List (List α)
  group : List α

variable (fits : List α → α → Bool)

def place (filling : Filling α) (item : α) : Filling α :=
  if filling.group ≠ [] ∧ fits filling.group item = false then
    ⟨filling.done ++ [filling.group], [item]⟩
  else ⟨filling.done, filling.group ++ [item]⟩

def Filling.groups (filling : Filling α) : List (List α) :=
  if filling.group = [] then filling.done else filling.done ++ [filling.group]

def fill (items : List α) : List (List α) := (items.foldl (place fits) ⟨[], []⟩).groups

theorem Filling.flatten_groups (filling : Filling α) :
    filling.groups.flatten = filling.done.flatten ++ filling.group := by
  unfold Filling.groups
  split_ifs with empty
  · rw [empty, append_nil]
  · rw [flatten_append, flatten_singleton]

theorem flatten_place (filling : Filling α) (item : α) :
    (place fits filling item).groups.flatten = filling.groups.flatten ++ [item] := by
  rw [Filling.flatten_groups, Filling.flatten_groups]
  unfold place
  split_ifs
  · rw [flatten_append, flatten_singleton, append_assoc]
  · exact (append_assoc _ _ _).symm

theorem flatten_fill (items : List α) : (fill fits items).flatten = items := by
  have run : ∀ filling : Filling α,
      (items.foldl (place fits) filling).groups.flatten = filling.groups.flatten ++ items := by
    induction items with
    | nil => exact fun filling => (append_nil _).symm
    | cons item rest ih =>
      intro filling
      rw [foldl_cons, ih, flatten_place, append_assoc, singleton_append]
  exact run ⟨[], []⟩

theorem group_place_ne_nil (filling : Filling α) (item : α) :
    (place fits filling item).group ≠ [] := by
  unfold place
  split_ifs
  · exact cons_ne_nil _ _
  · exact append_ne_nil_of_right_ne_nil _ (cons_ne_nil _ _)

theorem group_foldl_ne_nil {items : List α} (nonempty : items ≠ []) (filling : Filling α) :
    (items.foldl (place fits) filling).group ≠ [] := by
  rw [← dropLast_append_getLast nonempty, foldl_append]
  exact group_place_ne_nil fits _ _

variable {fits} {holds : List α → Prop} {filling : Filling α}

/-- The groups of a filling are not empty and have a property. -/
structure Filling.Each (holds : List α → Prop) (filling : Filling α) : Prop where
  done : ∀ group ∈ filling.done, group ≠ [] ∧ holds group
  group : filling.group ≠ [] → holds filling.group

theorem Filling.Each.groups
    (each : filling.Each holds) : ∀ group ∈ filling.groups, group ≠ [] ∧ holds group := by
  unfold Filling.groups
  split_ifs with empty
  · exact each.done
  · exact forall_mem_append.mpr
      ⟨each.done, forall_mem_singleton.mpr ⟨empty, each.group empty⟩⟩

theorem Filling.Each.place {item : α} (each : filling.Each holds) (single : holds [item])
    (more : ∀ group, group ≠ [] → holds group → fits group item = true → holds (group ++ [item])) :
    (place fits filling item).Each holds := by
  unfold GreedyFill.place
  split_ifs with full
  · refine ⟨forall_mem_append.mpr ⟨each.done, ?_⟩, fun _ => single⟩
    exact forall_mem_singleton.mpr ⟨full.1, each.group full.1⟩
  · refine ⟨each.done, fun _ => ?_⟩
    show holds (filling.group ++ [item])
    by_cases empty : filling.group = []
    · rw [empty]
      exact single
    · refine more _ empty (each.group empty) ?_
      cases fitting : fits filling.group item with
      | true => rfl
      | false => exact absurd ⟨empty, fitting⟩ full

theorem forall_fill {items : List α} (single : ∀ item ∈ items, holds [item])
    (more : ∀ group, group ≠ [] → holds group → ∀ item ∈ items, fits group item = true →
      holds (group ++ [item])) : ∀ group ∈ fill fits items, group ≠ [] ∧ holds group := by
  have run : ∀ filling : Filling α, filling.Each holds →
      (items.foldl (place fits) filling).Each holds := by
    induction items with
    | nil => exact fun filling each => each
    | cons item rest ih =>
      intro filling each
      refine ih (fun other member => single other (mem_cons_of_mem _ member))
        (fun group nonempty holding other member =>
          more group nonempty holding other (mem_cons_of_mem _ member)) _ ?_
      exact each.place (single item mem_cons_self) fun group nonempty holding =>
        more group nonempty holding item mem_cons_self
  exact (run ⟨[], []⟩ ⟨forall_mem_nil _, fun nonempty => absurd rfl nonempty⟩).groups

end AgentContextLint.GreedyFill
