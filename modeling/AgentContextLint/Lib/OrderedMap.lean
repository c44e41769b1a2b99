import Mathlib.Data.List.Induction
import Mathlib.Data.List.Nodup

/-!
# Maps in insertion order

A finite map whose keys keep the order in which they were first set, as the entries of a list.

* `group` collects the values of a list under a key of each. `get?_group` reads a group back as
  the members of the list with this key, in the order of the list.
-/

/-- A map from keys to values, each key once, in the order of their first setting. -/
structure OrderedMap (κ β : Type) where
  entries : List (κ × β)
  nodup : (entries.map (·.1)).Nodup
  deriving DecidableEq

namespace OrderedMap

open List

variable {κ β : Type} {γ : Type}

def empty : OrderedMap κ β := ⟨[], nodup_nil⟩

def keys (map : OrderedMap κ β) : List κ := map.entries.map (·.1)

def values (map : OrderedMap κ β) : List β := map.entries.map (·.2)

variable [DecidableEq κ] {map : OrderedMap κ β} {entries : List (κ × β)} {value : β} {key : κ}

def lookup (key : κ) : List (κ × β) → Option β
  | [] => none
  | (first, value) :: rest => if first = key then some value else lookup key rest

def get? (map : OrderedMap κ β) (key : κ) : Option β := lookup key map.entries

/-- The entries with the value of a key replaced, or with a new entry at the end. -/
def setEntry (key : κ) (value : β) : List (κ × β) → List (κ × β)
  | [] => [(key, value)]
  | (first, old) :: rest =>
    if first = key then (first, value) :: rest else (first, old) :: setEntry key value rest

theorem keys_setEntry (key : κ) (value : β) (entries : List (κ × β)) :
    (setEntry key value entries).map (·.1) =
      if key ∈ entries.map (·.1) then entries.map (·.1) else entries.map (·.1) ++ [key] := by
  induction entries with
  | nil => simp [setEntry]
  | cons entry rest ih =>
    rcases entry with ⟨first, old⟩
    by_cases same : first = key
    · simp [setEntry, same]
    · have apart : ¬ key = first := fun eq => same eq.symm
      rw [setEntry, if_neg same, map_cons, ih]
      have inRest : key ∈ ((first, old) :: rest).map (·.1) ↔ key ∈ rest.map (·.1) := by
        rw [map_cons, mem_cons]
        exact ⟨fun cases => cases.resolve_left apart, .inr⟩
      by_cases present : key ∈ rest.map (·.1)
      · rw [if_pos present, if_pos (inRest.mpr present)]
        rfl
      · rw [if_neg present, if_neg fun member => present (inRest.mp member)]
        rfl

def set (map : OrderedMap κ β) (key : κ) (value : β) : OrderedMap κ β where
  entries := setEntry key value map.entries
  nodup := by
    rw [keys_setEntry]
    split_ifs with old
    · exact map.nodup
    · exact nodup_append_comm.mpr (nodup_cons.mpr ⟨old, map.nodup⟩)

theorem lookup_setEntry (key other : κ) (value : β) (entries : List (κ × β)) :
    lookup other (setEntry key value entries) =
      if key = other then some value else lookup other entries := by
  induction entries with
  | nil => rfl
  | cons entry rest ih =>
    rcases entry with ⟨first, old⟩
    rw [setEntry]
    by_cases same : first = key
    · rw [if_pos same, lookup, lookup, same]
      by_cases asked : key = other <;> simp [asked]
    · rw [if_neg same, lookup, lookup, ih]
      by_cases asked : key = other
      · have apart : ¬ first = other := fun eq => same (eq.trans asked.symm)
        rw [if_neg apart, if_pos asked, if_pos asked]
      · rw [if_neg asked, if_neg asked]

/-- Setting a key changes this key only. -/
theorem get?_set (map : OrderedMap κ β) (key other : κ) (value : β) :
    (map.set key value).get? other = if key = other then some value else map.get? other :=
  lookup_setEntry key other value map.entries

theorem keys_set (map : OrderedMap κ β) (key : κ) (value : β) :
    (map.set key value).keys = if key ∈ map.keys then map.keys else map.keys ++ [key] :=
  keys_setEntry key value map.entries

/-- The map with other values. -/
def mapValues {γ : Type} (f : β → γ) (map : OrderedMap κ β) : OrderedMap κ γ where
  entries := map.entries.map fun entry => (entry.1, f entry.2)
  nodup := by
    rw [map_map]
    exact map.nodup

theorem mapValues_set (f : β → γ) (map : OrderedMap κ β) (key : κ) (value : β) :
    (map.set key value).mapValues f = (map.mapValues f).set key (f value) := by
  rcases map with ⟨entries, nodup⟩
  simp only [set, mapValues, OrderedMap.mk.injEq]
  clear nodup
  induction entries with
  | nil => rfl
  | cons entry rest ih =>
    by_cases same : entry.1 = key <;> simp [setEntry, same, ih]

omit [DecidableEq κ] in
theorem values_mapValues (f : β → γ) (map : OrderedMap κ β) :
    (map.mapValues f).values = map.values.map f := by
  simp only [values, mapValues, map_map, Function.comp_def]

theorem get?_mapValues (f : β → γ) (map : OrderedMap κ β) (key : κ) :
    (map.mapValues f).get? key = (map.get? key).map f := by
  rcases map with ⟨entries, nodup⟩
  simp only [get?, mapValues]
  clear nodup
  induction entries with
  | nil => rfl
  | cons entry rest ih =>
    by_cases same : entry.1 = key <;> simp [lookup, same, ih]

theorem setEntry_of_notMem
    (fresh : key ∉ entries.map (·.1)) : setEntry key value entries = entries ++ [(key, value)] := by
  induction entries with
  | nil => rfl
  | cons entry rest ih =>
    rw [map_cons, mem_cons, not_or] at fresh
    rw [setEntry, if_neg (Ne.symm fresh.1), ih fresh.2, cons_append]

/-- A new key comes last. -/
theorem entries_set_of_notMem (fresh : key ∉ map.keys) :
    (map.set key value).entries = map.entries ++ [(key, value)] := setEntry_of_notMem fresh

theorem mem_keys_set (map : OrderedMap κ β) (key other : κ) (value : β) :
    other ∈ (map.set key value).keys ↔ other ∈ map.keys ∨ other = key := by
  rw [keys_set]
  split_ifs with old
  · exact ⟨.inl, fun cases => cases.elim id fun eq => eq ▸ old⟩
  · rw [mem_append, mem_singleton]

theorem lookup_isSome : (lookup key entries).isSome = true ↔ key ∈ entries.map (·.1) := by
  induction entries with
  | nil => simp [lookup]
  | cons entry rest ih =>
    rcases entry with ⟨first, value⟩
    rw [lookup, map_cons, mem_cons]
    by_cases same : first = key
    · simp [same]
    · have apart : ¬ key = first := fun eq => same eq.symm
      rw [if_neg same, ih]
      exact ⟨.inr, fun cases => cases.resolve_left apart⟩

theorem isSome_get? : (map.get? key).isSome = true ↔ key ∈ map.keys := lookup_isSome

theorem mem_of_lookup (found : lookup key entries = some value) : (key, value) ∈ entries := by
  induction entries with
  | nil => cases found
  | cons entry rest ih =>
    rcases entry with ⟨first, old⟩
    rw [lookup] at found
    split_ifs at found with same
    · cases found
      exact same ▸ mem_cons_self
    · exact mem_cons_of_mem _ (ih found)

theorem mem_entries_of_get?
    (found : map.get? key = some value) : (key, value) ∈ map.entries := mem_of_lookup found

theorem lookup_of_mem (nodup : (entries.map (·.1)).Nodup) (member : (key, value) ∈ entries) :
    lookup key entries = some value := by
  induction entries with
  | nil => cases member
  | cons entry rest ih =>
    rcases entry with ⟨first, old⟩
    rw [map_cons, nodup_cons] at nodup
    rw [lookup]
    rcases mem_cons.mp member with same | inRest
    · cases same
      rw [if_pos rfl]
    · have apart : first ≠ key := fun same =>
        nodup.1 (mem_map.mpr ⟨_, inRest, same.symm⟩)
      rw [if_neg apart]
      exact ih nodup.2 inRest

theorem get?_eq_some : map.get? key = some value ↔ (key, value) ∈ map.entries :=
  ⟨mem_entries_of_get?, lookup_of_mem map.nodup⟩

theorem mem_values : value ∈ map.values ↔ ∃ key, map.get? key = some value := by
  simp only [values, mem_map, get?_eq_some, Prod.exists, exists_eq_right]

/-! ## Groups -/

/-- Add a value to the group of a key. -/
def append (map : OrderedMap κ (List β)) (key : κ) (value : β) : OrderedMap κ (List β) :=
  map.set key ((map.get? key).getD [] ++ [value])

variable {α : Type} (key : α → κ)

def group (members : List α) : OrderedMap κ (List α) :=
  members.foldl (fun map member => map.append (key member) member) empty

def members (map : OrderedMap κ (List β)) (key : κ) : List β := (map.get? key).getD []

theorem members_append (map : OrderedMap κ (List β)) (asked key : κ) (value : β) :
    (map.append key value).members asked =
      if key = asked then map.members asked ++ [value] else map.members asked := by
  rw [members, append, get?_set]
  split_ifs with same
  · rw [same]
    rfl
  · rfl

/-- A value that is added to the groups of several keys. -/
theorem mem_members_foldl_append {names : List κ} {map : OrderedMap κ (List β)} {asked : κ}
    {value other : β} :
    other ∈ (names.foldl (fun map name => map.append name value) map).members asked ↔
      other ∈ map.members asked ∨ (asked ∈ names ∧ other = value) := by
  induction names generalizing map with
  | nil => simp
  | cons name rest ih =>
    rw [foldl_cons, ih, members_append, mem_cons]
    split_ifs with same
    · rw [mem_append, mem_singleton, eq_comm (a := asked)]
      simp only [same, true_or, true_and, or_assoc]
      exact or_congr_right ⟨fun either => either.elim id (·.2), Or.inl⟩
    · simp only [Ne.symm same, false_or]

theorem group_concat (front : List α) (member : α) :
    group key (front ++ [member]) = (group key front).append (key member) member := by
  rw [group, foldl_append]
  rfl

theorem members_group (list : List α) (asked : κ) :
    (group key list).members asked = list.filter fun member => key member = asked := by
  induction list using reverseRecOn with
  | nil => rfl
  | append_singleton front member ih =>
    rw [group_concat, members_append, ih, filter_append]
    by_cases same : key member = asked
    · rw [if_pos same, filter_singleton, decide_eq_true same, cond_true]
    · rw [if_neg same, filter_singleton, decide_eq_false same, cond_false, append_nil]

theorem mem_keys_group {list : List α} {asked : κ} :
    asked ∈ (group key list).keys ↔ ∃ member ∈ list, key member = asked := by
  induction list using reverseRecOn with
  | nil => simp [group, empty, keys]
  | append_singleton front member ih =>
    rw [group_concat, append, mem_keys_set, ih]
    simp only [mem_append, mem_singleton]
    constructor
    · rintro (⟨old, inFront, same⟩ | same)
      · exact ⟨old, .inl inFront, same⟩
      · exact ⟨member, .inr rfl, same.symm⟩
    · rintro ⟨old, inFront | rfl, same⟩
      · exact .inl ⟨old, inFront, same⟩
      · exact .inr same.symm

end OrderedMap
