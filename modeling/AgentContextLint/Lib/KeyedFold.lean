import Mathlib.Data.List.Nodup

/-!
# Folds over entries with keys

A fold whose steps change what is seen under their own key only, over entries with distinct keys,
shows under each key what the one entry with this key has made of it (`view_foldl`).
-/

namespace KeyedFold

variable {α β κ σ : Type} [DecidableEq κ] (key : α → κ) (asked : κ)

def at? (list : List α) : Option α := list.find? fun entry => key entry = asked

variable {key asked} {list : List α} {entry : α}

theorem key_of_at? (found : at? key asked list = some entry) : key entry = asked := by
  have own := List.find?_some found
  exact of_decide_eq_true own

theorem mem_of_at? (found : at? key asked list = some entry) :
    entry ∈ list := List.mem_of_find?_eq_some found

theorem at?_cons (entry : α) (list : List α) :
    at? key asked (entry :: list) = if key entry = asked then some entry else at? key asked list := by
  rw [at?, List.find?_cons]
  split_ifs with own
  · rw [decide_eq_true own]
  · rw [decide_eq_false own]
    rfl

theorem at?_eq_none : at? key asked list = none ↔ ∀ entry ∈ list, key entry ≠ asked := by
  rw [at?, List.find?_eq_none]
  exact forall_congr' fun entry => forall_congr' fun _ => not_congr decide_eq_true_iff

theorem at?_isSome : (at? key asked list).isSome = true ↔ ∃ entry ∈ list, key entry = asked := by
  rw [at?, List.find?_isSome]
  exact exists_congr fun entry => and_congr_right fun _ => decide_eq_true_iff

/-- Where keys are distinct, a key finds the one member that has it. -/
theorem at?_eq_some (distinct : (list.map key).Nodup) :
    at? key asked list = some entry ↔ entry ∈ list ∧ key entry = asked := by
  refine ⟨fun found => ⟨mem_of_at? found, key_of_at? found⟩, fun ⟨member, own⟩ => ?_⟩
  cases found : at? key asked list with
  | none => exact absurd own (at?_eq_none.mp found entry member)
  | some other =>
    exact congrArg some (List.inj_on_of_nodup_map distinct (mem_of_at? found) member
      ((key_of_at? found).trans own.symm))

/-- Keys may be looked up under other names. -/
theorem at?_comp {ν : Type} [DecidableEq ν] {name : κ → ν} (distinct : Function.Injective name)
    (key : α → κ) (asked : κ) (list : List α) :
    at? (fun entry => name (key entry)) (name asked) list = at? key asked list :=
  congrArg (fun test => list.find? test) <| funext fun _ => decide_eq_decide.mpr distinct.eq_iff

/-- What is seen under a key behind a fold. -/
theorem view_foldl (view : σ → β) {f : σ → α → σ} {step : β → α → β}
    (miss : ∀ state entry, key entry ≠ asked → view (f state entry) = view state)
    (hit : ∀ state entry, key entry = asked → view (f state entry) = step (view state) entry) (distinct : (list.map key).Nodup) (state : σ) :
    view (list.foldl f state) = (at? key asked list).elim (view state) (step (view state)) := by
  have stays : ∀ (rest : List α) state, (∀ entry ∈ rest, key entry ≠ asked) →
      view (rest.foldl f state) = view state := by
    intro rest
    induction rest with
    | nil => exact fun _ _ => rfl
    | cons entry rest ih =>
      intro state apart
      rw [List.foldl_cons, ih _ fun other member => apart other (List.mem_cons_of_mem _ member),
        miss _ _ (apart entry List.mem_cons_self)]
  induction list generalizing state with
  | nil => rfl
  | cons entry rest ih =>
    rw [List.map_cons, List.nodup_cons] at distinct
    by_cases own : key entry = asked
    · have others : ∀ other ∈ rest, key other ≠ asked := fun other member same =>
        distinct.1 (List.mem_map.mpr ⟨other, member, same.trans own.symm⟩)
      rw [List.foldl_cons, stays rest _ others, hit _ _ own, at?_cons, if_pos own]
      rfl
    · rw [List.foldl_cons, ih distinct.2, miss _ _ own, at?_cons, if_neg own]

end KeyedFold
