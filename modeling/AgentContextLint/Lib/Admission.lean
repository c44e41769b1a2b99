import Mathlib.Data.List.Nodup
import Mathlib.Data.List.Perm.Basic

/-!
# Entries under two keys

A register takes entries that are read one by one, and refuses an entry that cannot be read or
that shares one of its two keys with an earlier one. What it takes does not depend on the order
(`Admissible.perm`).
-/

/-- The entries so far, and their keys. -/
structure Admitted (κ β : Type) where
  ids : List κ
  keys : List κ
  entries : List β

namespace Admitted

open List

variable {α β κ : Type} [DecidableEq κ] (read : α → Option β) (id key : β → κ)

def empty : Admitted κ β := ⟨[], [], []⟩

def accept (state : Admitted κ β) (entry : β) : Option (Admitted κ β) :=
  if id entry ∈ state.ids ∨ key entry ∈ state.keys then none
  else some ⟨state.ids ++ [id entry], state.keys ++ [key entry], state.entries ++ [entry]⟩

def admitAll (state : Admitted κ β) : List α → Option (Admitted κ β)
  | [] => some state
  | item :: rest => do
    let entry ← read item
    let state ← state.accept id key entry
    admitAll state rest

/-- All of the entries can be read, and no two of them share a key. -/
structure Admissible (items : List α) : Prop where
  readable : ∀ item ∈ items, (read item).isSome = true
  ids : ((items.filterMap read).map id).Nodup
  keys : ((items.filterMap read).map key).Nodup

variable {read id key} {state state' : Admitted κ β} {items : List α}

theorem admit_eq_some {entry : β} : state.accept id key entry = some state' ↔
      state' = ⟨state.ids ++ [id entry], state.keys ++ [key entry], state.entries ++ [entry]⟩ ∧
        id entry ∉ state.ids ∧ key entry ∉ state.keys := by
  rw [accept, Option.ite_none_left_eq_some, not_or, Option.some.injEq, eq_comm, and_comm]

/-- The loop, from any register on. -/
theorem admitAll_eq_some : state.admitAll read id key items = some state' ↔
      Admissible read id key items ∧
      (∀ entry ∈ items.filterMap read, id entry ∉ state.ids ∧ key entry ∉ state.keys) ∧
      state' = ⟨state.ids ++ (items.filterMap read).map id,
        state.keys ++ (items.filterMap read).map key, state.entries ++ items.filterMap read⟩ := by
  induction items generalizing state with
  | nil =>
    have none : Admissible read id key [] := ⟨nofun, nodup_nil, nodup_nil⟩
    simp [admitAll, none, eq_comm]
  | cons item rest ih =>
    rw [admitAll, Option.bind_eq_bind]
    cases known : read item with
    | none =>
      refine ⟨nofun, fun admitted => ?_⟩
      cases known ▸ admitted.1.readable item mem_cons_self
    | some entry =>
      rw [Option.bind_some, Option.bind_eq_bind, Option.bind_eq_some_iff, filterMap_cons_some known]
      simp only [admit_eq_some, ih, and_assoc, exists_eq_left, mem_append, mem_singleton,
        forall_mem_cons, map_cons, append_assoc, singleton_append, not_or]
      constructor
      · rintro ⟨freshId, freshKey, all, fresh, same⟩
        refine ⟨⟨?_, ?_, ?_⟩, freshId, freshKey, fun other member =>
          ⟨(fresh other member).1, (fresh other member).2.2.1⟩, same⟩
        · exact forall_mem_cons.mpr ⟨by rw [known]; rfl, all.readable⟩
        · rw [filterMap_cons_some known, map_cons, nodup_cons]
          refine ⟨fun member => ?_, all.ids⟩
          obtain ⟨other, inRest, shared⟩ := mem_map.mp member
          exact (fresh other inRest).2.1 shared
        · rw [filterMap_cons_some known, map_cons, nodup_cons]
          refine ⟨fun member => ?_, all.keys⟩
          obtain ⟨other, inRest, shared⟩ := mem_map.mp member
          exact (fresh other inRest).2.2.2 shared
      · rintro ⟨⟨readable, ids, keys⟩, freshId, freshKey, fresh, same⟩
        rw [filterMap_cons_some known, map_cons, nodup_cons] at ids keys
        refine ⟨freshId, freshKey, ⟨(forall_mem_cons.mp readable).2, ids.2, keys.2⟩,
          fun other member => ⟨(fresh other member).1, ?_, (fresh other member).2, ?_⟩, same⟩
        · exact fun shared => ids.1 (mem_map.mpr ⟨other, member, shared⟩)
        · exact fun shared => keys.1 (mem_map.mpr ⟨other, member, shared⟩)

theorem admitAll_empty_eq_some {state : Admitted κ β} :
    empty.admitAll read id key items = some state ↔
      Admissible read id key items ∧ state = ⟨(items.filterMap read).map id,
        (items.filterMap read).map key, items.filterMap read⟩ := by
  rw [admitAll_eq_some]
  simp [empty]

omit [DecidableEq κ] in
theorem Admissible.perm {items items' : List α} (all : Admissible read id key items)
    (perm : items'.Perm items) : Admissible read id key items' where
  readable item member := all.readable item (perm.mem_iff.mp member)
  ids := ((perm.filterMap read).map id).nodup_iff.mpr all.ids
  keys := ((perm.filterMap read).map key).nodup_iff.mpr all.keys

end Admitted
