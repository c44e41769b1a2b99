import Mathlib.Data.List.Basic

/-!
# Values with complaints

A validator that goes on after a complaint returns what it could make of its input together with
everything it has to say. `Checked` programs run one after the other, and their complaints add up:
a program has none exactly if none of its parts has (`clean_bind`).

`settled` is the value of a program without complaints, and none of any other. Programs that settle
alike are `Alike`: they may differ in what they complain of, and in what is left after a complaint.
-/

/-- A value, and the complaints on the way to it. -/
structure Checked (ι α : Type) where
  value : α
  issues : List ι

namespace Checked

variable {ι α β : Type} {f : Nat → α → Checked ι β} {x : Checked ι α} {as : List α} {index : Nat}

instance : Monad (Checked ι) where
  pure value := ⟨value, []⟩
  bind x f := ⟨(f x.value).value, x.issues ++ (f x.value).issues⟩

def push (issue : ι) : Checked ι Unit := ⟨(), [issue]⟩

/-- Complain if something is the case. -/
def pushIf (condition : Prop) [Decidable condition] (issue : ι) : Checked ι Unit :=
  ⟨(), if condition then [issue] else []⟩

/-- Nothing to complain about. -/
def Clean (x : Checked ι α) : Prop := x.issues = []

instance [DecidableEq ι] (x : Checked ι α) : Decidable x.Clean :=
  inferInstanceAs (Decidable (x.issues = []))

@[simp] theorem value_pure (a : α) : (pure a : Checked ι α).value = a := rfl

@[simp] theorem clean_pure (a : α) : (pure a : Checked ι α).Clean := rfl

@[simp] theorem value_bind (x : Checked ι α) (f : α → Checked ι β) :
    (x >>= f).value = (f x.value).value := rfl

@[simp] theorem clean_bind (x : Checked ι α) (f : α → Checked ι β) :
    (x >>= f).Clean ↔ x.Clean ∧ (f x.value).Clean := List.append_eq_nil_iff

@[simp] theorem not_clean_push (issue : ι) : ¬ (push issue).Clean := List.cons_ne_nil issue []

@[simp] theorem clean_pushIf {condition : Prop} [Decidable condition] {issue : ι} :
    (pushIf condition issue).Clean ↔ ¬ condition := by
  unfold pushIf Clean
  split_ifs with holds <;> simp [holds]

/-! ## Loops -/

/-- A loop over a list from an index on, with a state. -/
def foldIdx {σ : Type} (f : Nat → σ → α → Checked ι σ) : (index : Nat) → σ → List α → Checked ι σ
  | _, s, [] => pure s
  | index, s, a :: rest => do
    let s ← f index s a
    foldIdx f (index + 1) s rest

/-- Without a complaint, what every round keeps holds at the end. -/
theorem foldIdx_clean {σ : Type} {f : Nat → σ → α → Checked ι σ} (holds : List α → σ → Prop) {start : σ} (initial : holds [] start)
    (round : ∀ done a rest s, as = done ++ a :: rest → holds done s → (f done.length s a).Clean →
      holds (done ++ [a]) (f done.length s a).value)
    (clean : (foldIdx f 0 start as).Clean) : holds as (foldIdx f 0 start as).value := by
  have behind : ∀ done rest s, as = done ++ rest → holds done s →
      (foldIdx f done.length s rest).Clean → holds as (foldIdx f done.length s rest).value := by
    intro done rest
    induction rest generalizing done with
    | nil =>
      intro s split held _
      rw [List.append_nil] at split
      exact split ▸ held
    | cons a rest ih =>
      intro s split held clean
      rw [foldIdx, clean_bind] at clean
      rw [foldIdx, value_bind]
      have next := ih (done ++ [a]) (f done.length s a).value
        (by rw [split, List.append_assoc, List.singleton_append])
        (round done a rest s split held clean.1)
      rw [List.length_append, List.length_singleton] at next
      exact next clean.2
  exact behind [] as start rfl initial clean

/-- A loop over a list from an index on that collects the values. -/
def mapIdx (f : Nat → α → Checked ι β) : (index : Nat) → List α → Checked ι (List β)
  | _, [] => pure []
  | index, a :: rest => do
    let b ← f index a
    let bs ← mapIdx f (index + 1) rest
    return b :: bs

theorem clean_mapIdx :
    (mapIdx f index as).Clean ↔ ∀ i a, as[i]? = some a → (f (index + i) a).Clean := by
  induction as generalizing index with
  | nil => simp [mapIdx]
  | cons first rest ih =>
    simp only [mapIdx, clean_bind, clean_pure, and_true]
    rw [ih]
    constructor
    · rintro ⟨here, later⟩ i a found
      cases i with
      | zero => cases found; exact here
      | succ i =>
        have there := later i a found
        rwa [Nat.add_right_comm] at there
    · refine fun all => ⟨all 0 first rfl, fun i a found => ?_⟩
      have there := all (i + 1) a found
      rwa [← Nat.add_assoc, Nat.add_right_comm] at there

theorem value_mapIdx :
    (mapIdx f index as).value = as.mapIdx fun i a => (f (index + i) a).value := by
  induction as generalizing index with
  | nil => rfl
  | cons first rest ih =>
    rw [List.mapIdx_cons, mapIdx, value_bind, value_bind, value_pure, ih]
    refine congrArg ((f index first).value :: ·) (congrArg (List.mapIdx · rest) ?_)
    funext i a
    rw [Nat.add_right_comm, Nat.add_assoc]

/-! ## Values without complaints -/

/-- The value, if there is nothing to complain about. -/
def settled (x : Checked ι α) : Option α :=
  match x.issues with
  | [] => some x.value
  | _ :: _ => none

theorem settled_eq_some {a : α} : x.settled = some a ↔ x.Clean ∧ x.value = a := by
  unfold settled Clean
  cases x.issues <;> simp

theorem settled_eq_none : x.settled = none ↔ ¬ x.Clean := by
  unfold settled Clean
  cases x.issues <;> simp

@[simp] theorem settled_pure (a : α) : (pure a : Checked ι α).settled = some a := rfl

@[simp] theorem settled_clean (a : α) : (⟨a, []⟩ : Checked ι α).settled = some a := rfl

@[simp] theorem settled_bind (x : Checked ι α) (f : α → Checked ι β) :
    (x >>= f).settled = x.settled.bind fun a => (f a).settled := by
  rcases x with ⟨value, _ | ⟨issue, issues⟩⟩
  · rfl
  · rfl

@[simp] theorem settled_pushIf (condition : Prop) [Decidable condition] (issue : ι) :
    (pushIf condition issue).settled = if condition then none else some () := by
  unfold pushIf
  split_ifs <;> rfl

/-- Complaints about some members of a list. -/
theorem settled_map {γ : Type} (a : α) (list : List γ) (complain : γ → ι) :
    (⟨a, list.map complain⟩ : Checked ι α).settled = if list = [] then some a else none := by
  cases list with
  | nil => rfl
  | cons first rest => rfl

/-! ## Programs that settle alike -/

/-- Two programs settle alike. -/
def Alike (x y : Checked ι α) : Prop := x.settled = y.settled

namespace Alike

variable {x y : Checked ι α}

theorem refl (x : Checked ι α) : x.Alike x := rfl

theorem bind {f g : α → Checked ι β} (first : x.Alike y) (next : ∀ a, (f a).Alike (g a)) :
    (x >>= f).Alike (y >>= g) := by
  unfold Alike
  rw [settled_bind, settled_bind, first]
  exact congrArg _ (funext next)

theorem pushIf (condition : Prop) [Decidable condition] (issue issue' : ι) :
    (pushIf condition issue).Alike (Checked.pushIf condition issue') := by
  unfold Alike
  rw [settled_pushIf, settled_pushIf]

theorem complaints (a b : α) (issue issue' : ι) : (⟨a, [issue]⟩ : Checked ι α).Alike ⟨b, [issue']⟩ :=
  rfl

theorem map {γ : Type} (a : α) (list : List γ) (complain complain' : γ → ι) :
    (⟨a, list.map complain⟩ : Checked ι α).Alike ⟨a, list.map complain'⟩ := by
  unfold Alike
  rw [settled_map, settled_map]

end Alike

/-! ## Programs that deliver -/

/-- Without a complaint there is a value. -/
def Delivers (x : Checked ι (Option α)) : Prop := x.settled ≠ some none

namespace Delivers

variable {x : Checked ι (Option β)}

theorem some (a : α) : (pure (some a) : Checked ι (Option α)).Delivers := by
  simp [Delivers]

theorem complaint (a : Option α) (issue : ι) : (⟨a, [issue]⟩ : Checked ι (Option α)).Delivers := by
  intro settled
  cases settled

theorem after {x : Checked ι β} {f : β → Checked ι (Option α)}
    (next : ∀ b, x.settled = .some b → (f b).Delivers) : (x >>= f).Delivers := by
  unfold Delivers
  rw [settled_bind]
  cases settles : x.settled with
  | none => exact nofun
  | some b => exact next b settles

/-- Behind a program that delivers there is a value. -/
theorem bind_join {γ : Type} (first : x.Delivers)
    (f : Option β → Option γ) : x.settled.bind f = x.settled.join.bind fun b => f (.some b) := by
  unfold Delivers at first
  cases settles : x.settled with
  | none => rfl
  | some b =>
    cases b with
    | none => exact absurd settles first
    | some b => rfl

theorem settled_bind (first : x.Delivers) (f : Option β → Checked ι α) :
    (x >>= f).settled = x.settled.join.bind fun b => (f (.some b)).settled :=
  (Checked.settled_bind x f).trans (first.bind_join _)

theorem bind {f : Option β → Checked ι (Option α)} (first : x.Delivers)
    (next : ∀ b, (f (.some b)).Delivers) : (x >>= f).Delivers := by
  refine after fun b settles => ?_
  cases b with
  | none => exact absurd settles first
  | some b => exact next b

end Delivers

end Checked
