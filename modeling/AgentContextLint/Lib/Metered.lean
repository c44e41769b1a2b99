import Mathlib.Data.List.Forall2

/-!
# Metered computations

A program over a budget interleaves its work with charges to a meter, and a charge
may stop it. `Computes charge x v` says that the monadic program `x` is nothing but
a list of charges followed by the value `v`: whatever the meter does, `x` either is
stopped by a charge or returns `v`. The rules compose it along `pure`, `bind` and
`map`, so that a metered program is compared with its value once, without a word
about the meter.
-/

namespace Metered

open List

variable {m : Type → Type} [Monad m] (charge : Nat → m PUnit)

def chargeAll : List Nat → m PUnit
  | [] => pure ⟨⟩
  | amount :: rest => charge amount >>= fun _ => chargeAll rest

/-- `x` charges the meter and returns `v`. -/
def Computes {α : Type} (x : m α) (v : α) : Prop :=
  ∃ amounts : List Nat, x = chargeAll charge amounts >>= fun _ => pure v

variable {charge} [LawfulMonad m] {α β : Type}

theorem chargeAll_append (first second : List Nat) : chargeAll charge (first ++ second) =
      chargeAll charge first >>= fun _ => chargeAll charge second := by
  induction first with
  | nil => simp [chargeAll]
  | cons amount rest ih => simp [chargeAll, ih]

theorem computes_pure (v : α) : Computes charge (pure v : m α) v := ⟨[], by simp [chargeAll]⟩

theorem computes_charge (amount : Nat) : Computes charge (charge amount) ⟨⟩ :=
  ⟨[amount], by simp [chargeAll]⟩

variable {v : α}

theorem Computes.bind {x : m α} {f : α → m β} {w : β} (first : Computes charge x v)
    (second : Computes charge (f v) w) : Computes charge (x >>= f) w := by
  obtain ⟨amounts, rfl⟩ := first
  obtain ⟨later, eq⟩ := second
  exact ⟨amounts ++ later, by simp [chargeAll_append, eq]⟩

theorem Computes.map {x : m α} (f : α → β) (computes : Computes charge x v) :
    Computes charge (f <$> x) (f v) := by
  rw [← bind_pure_comp]
  exact computes.bind (computes_pure _)

omit [LawfulMonad m] in
/-- A test that runs one of two programs. -/
theorem Computes.ite {condition : Prop} [Decidable condition] {x y : m α} {w : α}
    (yes : condition → Computes charge x v) (no : ¬ condition → Computes charge y w) :
    Computes charge (if condition then x else y) (if condition then v else w) := by
  by_cases holds : condition
  · simpa only [if_pos holds] using yes holds
  · simpa only [if_neg holds] using no holds

variable {γ : Type}

/-- A map of a metered program over a list. -/
theorem Computes.mapM {f : γ → m α} {g : γ → α} {list : List γ}
    (each : ∀ c ∈ list, Computes charge (f c) (g c)) :
    Computes charge (list.mapM f) (list.map g) := by
  induction list with
  | nil => exact computes_pure []
  | cons c rest ih =>
    rw [mapM_cons]
    apply (each c mem_cons_self).bind
    exact (ih fun d member => each d (mem_cons_of_mem c member)).bind (computes_pure _)

/-- A loop whose rounds are metered programs. -/
theorem exists_computes_foldlM {f : β → γ → m β} {list : List γ}
    (each : ∀ c ∈ list, ∀ b, ∃ v, Computes charge (f b c) v) (start : β) :
    ∃ v, Computes charge (list.foldlM f start) v := by
  induction list generalizing start with
  | nil => exact ⟨start, computes_pure start⟩
  | cons c rest ih =>
    rcases each c mem_cons_self start with ⟨next, first⟩
    rcases ih (fun d member => each d (mem_cons_of_mem c member)) next with ⟨v, later⟩
    refine ⟨v, ?_⟩
    rw [foldlM_cons]
    exact first.bind later

/-- What a completed run of a metered program over a state returns is its value. -/
theorem Computes.eq_of_run {σ ε : Type} {charge : Nat → StateT σ (Except ε) PUnit}
    {x : StateT σ (Except ε) α} {value : α} {start finish : σ} (computes : Computes charge x v)
    (run : x start = .ok (value, finish)) : value = v := by
  obtain ⟨amounts, rfl⟩ := computes
  change (chargeAll charge amounts start >>= fun out => Except.ok (v, out.2)) = _ at run
  cases charged : chargeAll charge amounts start with
  | error e => rw [charged] at run; cases run
  | ok out => rw [charged] at run; cases run; rfl

/-- A metered program over a state is stopped by a charge only. -/
theorem Computes.charge_of_error {σ ε : Type} {charge : Nat → StateT σ (Except ε) PUnit}
    {x : StateT σ (Except ε) α} {start : σ} {e : ε} (computes : Computes charge x v)
    (stopped : x start = .error e) : ∃ amount between, charge amount between = .error e := by
  rcases computes with ⟨amounts, rfl⟩
  change (chargeAll charge amounts start >>= fun out => Except.ok (v, out.2)) = _ at stopped
  induction amounts generalizing start with
  | nil => cases stopped
  | cons amount rest ih =>
    cases charged : charge amount start with
    | error e' =>
      have same : chargeAll charge (amount :: rest) start = .error e' := by
        change (charge amount start >>= fun out => chargeAll charge rest out.2) = _
        rw [charged]
        rfl
      rw [same] at stopped
      cases stopped
      exact ⟨amount, start, charged⟩
    | ok out =>
      have same : chargeAll charge (amount :: rest) start = chargeAll charge rest out.2 := by
        change (charge amount start >>= fun out => chargeAll charge rest out.2) = _
        rw [charged]
        rfl
      rw [same] at stopped
      exact ih stopped

/-! ## Completed runs -/

section Runs

variable {σ ε : Type} {f : α → Except ε β} {as : List α} {x : Except ε α} {start finish : σ} {b : β}

theorem bind_eq_ok : (x >>= f) = .ok b ↔ ∃ a, x = .ok a ∧ f a = .ok b := by
  cases x with
  | error e => exact ⟨fun h => (by cases h), fun ⟨_, h, _⟩ => (by cases h)⟩
  | ok a => exact ⟨fun h => ⟨a, rfl, h⟩, fun ⟨_, h, rest⟩ => by cases h; exact rest⟩

variable {a : α}

/-- A program that completes behind one that completes. -/
theorem exists_bind (first : x = .ok a) (second : ∃ b, f a = .ok b) : ∃ b, (x >>= f) = .ok b := by
  rcases second with ⟨b, later⟩
  exact ⟨b, bind_eq_ok.mpr ⟨a, first, later⟩⟩

theorem check_bind_eq_ok {x : Except ε Unit} {f : Unit → Except ε β} :
    (x >>= f) = .ok b ↔ x = .ok () ∧ f () = .ok b :=
  bind_eq_ok.trans ⟨fun ⟨(), passed, rest⟩ => ⟨passed, rest⟩, fun ⟨passed, rest⟩ => ⟨(), passed, rest⟩⟩

/-- A check that fails with a given error. -/
def refuseIf (condition : Prop) [Decidable condition] (e : ε) : Except ε Unit :=
  if condition then .error e else .ok ()

variable {e : ε}

theorem refuseIf_eq_ok {condition : Prop} [Decidable condition] {out : Unit} :
    refuseIf condition e = .ok out ↔ ¬ condition := by
  unfold refuseIf
  split_ifs with holds
  · exact ⟨fun eq => (by cases eq), fun not => absurd holds not⟩
  · exact ⟨fun _ => holds, fun _ => rfl⟩

theorem mapError_eq_ok {δ : Type} {f : ε → δ} : x.mapError f = .ok a ↔ x = .ok a := by
  cases x with
  | error e => exact ⟨fun eq => (by cases eq), fun eq => (by cases eq)⟩
  | ok b => exact ⟨fun eq => (by cases eq; rfl), fun eq => (by cases eq; rfl)⟩

theorem ok_bind (a : α) (f : α → Except ε β) : (Except.ok a >>= f) = f a := rfl

theorem eq_ok_of_map {f : α → β} (mapped : x.map f = .ok b) : ∃ a, x = .ok a ∧ f a = b := by
  cases x with
  | error e => cases mapped
  | ok a => exact ⟨a, rfl, Except.ok.inj mapped⟩

theorem eq_ok_of_toOption (found : x.toOption = some a) : x = .ok a := by
  cases x with
  | error e => cases found
  | ok b => exact congrArg Except.ok (Option.some.inj found)

/-- Two computations have the same result, or none. -/
theorem toOption_eq {x y : Except ε α} (same : ∀ a, x = .ok a ↔ y = .ok a) : x.toOption = y.toOption := by
  cases x with
  | ok a =>
    rw [(same a).mp rfl]
  | error e =>
    cases y with
    | ok b => cases (same b).mpr rfl
    | error e' => rfl

theorem eq_error_of_map {f : α → β} (mapped : x.map f = .error e) : x = .error e := by
  cases x with
  | error e => exact congrArg Except.error (Except.error.inj mapped)
  | ok a => cases mapped

variable {bs : List β}

theorem exists_of_forall₂ {related : α → β → Prop} (each : Forall₂ related as bs)
    (member : a ∈ as) : ∃ b ∈ bs, related a b := by
  induction each with
  | nil => cases member
  | cons here _ ih =>
    rcases mem_cons.mp member with rfl | later
    · exact ⟨_, mem_cons_self, here⟩
    · rcases ih later with ⟨b, inRest, found⟩
      exact ⟨b, mem_cons_of_mem _ inRest, found⟩

/-- A completed map over a list completes at every element. -/
theorem mapM_eq_ok : as.mapM f = .ok bs ↔ Forall₂ (fun a b => f a = .ok b) as bs := by
  induction as generalizing bs with
  | nil => simp [pure, Except.pure, eq_comm, forall₂_nil_left_iff]
  | cons a as ih =>
    simp only [mapM_cons, bind_eq_ok, forall₂_cons_left_iff, ih, pure, Except.pure, Except.ok.injEq]
    exact ⟨fun ⟨b, first, rest, mapped, eq⟩ => ⟨b, rest, first, mapped, eq.symm⟩,
      fun ⟨b, rest, first, mapped, eq⟩ => ⟨b, first, rest, mapped, eq.symm⟩⟩

theorem mapM_eq_some {read : α → Option β} :
    as.mapM read = some bs ↔ Forall₂ (fun a b => read a = some b) as bs := by
  induction as generalizing bs with
  | nil => simp [eq_comm, forall₂_nil_left_iff]
  | cons a as ih =>
    simp only [mapM_cons, Option.bind_eq_bind, Option.bind_eq_some_iff, forall₂_cons_left_iff, ih,
      pure, Option.some.injEq]
    exact ⟨fun ⟨b, first, rest, mapped, eq⟩ => ⟨b, rest, first, mapped, eq.symm⟩,
      fun ⟨b, rest, first, mapped, eq⟩ => ⟨b, first, rest, mapped, eq.symm⟩⟩

/-- A map that completes at every element completes. -/
theorem mapM_eq_ok_map {g : α → β}
    (each : ∀ a ∈ as, f a = .ok (g a)) : as.mapM f = .ok (as.map g) :=
  mapM_eq_ok.mpr (forall₂_map_right_iff.mpr (forall₂_same.mpr each))

/-- A map that completes with a property at every element completes with it. -/
theorem exists_mapM {holds : β → Prop} (each : ∀ a ∈ as, ∃ b, f a = .ok b ∧ holds b) :
    ∃ bs, as.mapM f = .ok bs ∧ bs.length = as.length ∧ ∀ b ∈ bs, holds b := by
  induction as with
  | nil => exact ⟨[], rfl, rfl, forall_mem_nil _⟩
  | cons a as ih =>
    rcases each a mem_cons_self with ⟨b, made, here⟩
    rcases ih fun a member => each a (mem_cons_of_mem _ member) with ⟨bs, mapped, long, rest⟩
    refine ⟨b :: bs, ?_, congrArg (· + 1) long, forall_mem_cons.mpr ⟨here, rest⟩⟩
    rw [mapM_cons, made, mapped]
    rfl

theorem exists_of_mem_mapM (run : as.mapM f = .ok bs) (member : b ∈ bs) :
    ∃ a ∈ as, f a = .ok b :=
  exists_of_forall₂ (mapM_eq_ok.mp run).flip member

theorem exists_mem_of_mapM (run : as.mapM f = .ok bs) (member : a ∈ as) :
    ∃ b ∈ bs, f a = .ok b :=
  exists_of_forall₂ (mapM_eq_ok.mp run) member

/-- Checks of the members of a list pass exactly if each of them does. -/
theorem forM_eq_ok {check : α → Except ε Unit} :
    as.forM check = .ok () ↔ ∀ a ∈ as, check a = .ok () := by
  induction as with
  | nil => exact ⟨fun _ => forall_mem_nil _, fun _ => rfl⟩
  | cons first rest ih =>
    change (check first >>= fun _ => rest.forM check) = _ ↔ _
    rw [check_bind_eq_ok, ih, forall_mem_cons]

/-- A fold whose rounds complete exactly as long as something holds of what was read completes
exactly if it holds of the whole list. -/
theorem foldlM_eq_ok_iff {f : β → α → Except ε β} (holds : List α → Prop) (state : List α → β)
    (start : holds []) (closed : ∀ front rest, holds (front ++ rest) → holds front)
    (round : ∀ front a next, holds front →
      (f (state front) a = .ok next ↔ holds (front ++ [a]) ∧ next = state (front ++ [a])))
    (list : List α) (final : β) :
    list.foldlM f (state []) = .ok final ↔ holds list ∧ final = state list := by
  have from_ : ∀ (rest front : List α), holds front → (rest.foldlM f (state front) = .ok final ↔
        holds (front ++ rest) ∧ final = state (front ++ rest)) := by
    intro rest
    induction rest with
    | nil =>
      intro front here
      rw [append_nil, foldlM_nil]
      exact ⟨fun eq => ⟨here, (Except.ok.inj eq).symm⟩, fun both => congrArg Except.ok both.2.symm⟩
    | cons a rest ih =>
      intro front here
      rw [foldlM_cons, bind_eq_ok, append_cons]
      constructor
      · intro ran
        rcases ran with ⟨next, first, later⟩
        rcases (round front a next here).mp first with ⟨holdsNext, rfl⟩
        exact (ih (front ++ [a]) holdsNext).mp later
      · intro both
        have holdsNext := closed (front ++ [a]) rest both.1
        exact ⟨_, (round front a _ here).mpr ⟨holdsNext, rfl⟩,
          (ih (front ++ [a]) holdsNext).mpr both⟩
  exact from_ list [] start

/-- A fold completes when each round does from what holds before it, and leaves what holds
behind it. -/
theorem foldlM_eq_ok (holds : List α → β → Prop) {f : β → α → Except ε β} {start : β}
    (initial : holds [] start)
    (round : ∀ (done : List α) (a : α) (rest : List α) (b : β), as = done ++ a :: rest →
      holds done b → ∃ next, f b a = .ok next ∧ holds (done ++ [a]) next) :
    ∃ final, as.foldlM f start = .ok final ∧ holds as final := by
  have from_ : ∀ (rest done : List α) (b : β), as = done ++ rest → holds done b →
      ∃ final, rest.foldlM f b = .ok final ∧ holds as final := by
    intro rest
    induction rest with
    | nil =>
      intro done b split here
      rw [append_nil] at split
      exact ⟨b, rfl, split ▸ here⟩
    | cons a rest ih =>
      intro done b split here
      obtain ⟨next, run, later⟩ := round done a rest b split here
      obtain ⟨final, completes, whole⟩ := ih (done ++ [a]) next (by simp [split]) later
      refine ⟨final, ?_, whole⟩
      rw [foldlM_cons, run]
      exact completes
  exact from_ as [] start rfl initial

/-- What the rounds keep holds behind a fold that completes. -/
theorem holds_of_foldlM (holds : List α → β → Prop) {f : β → α → Except ε β}
    {start final : β} (ran : as.foldlM f start = .ok final) (initial : holds [] start)
    (round : ∀ (done : List α) (a : α) (rest : List α) (b next : β), as = done ++ a :: rest →
      holds done b → f b a = .ok next → holds (done ++ [a]) next) : holds as final := by
  have from_ : ∀ (rest done : List α) (b : β), as = done ++ rest → holds done b →
      rest.foldlM f b = .ok final → holds as final := by
    intro rest
    induction rest with
    | nil =>
      intro done b split here ended
      rw [append_nil] at split
      cases ended
      exact split ▸ here
    | cons a rest ih =>
      intro done b split here ended
      rw [foldlM_cons, bind_eq_ok] at ended
      rcases ended with ⟨next, first, later⟩
      exact ih (done ++ [a]) next (by rw [split, append_cons])
        (round done a rest b next split here first) later
  exact from_ as [] start rfl initial ran

/-- A completed run of a sequence completes its first part, then its second. -/
theorem bind_run_eq_ok {x : StateT σ (Except ε) α} {f : α → StateT σ (Except ε) β} :
    (x >>= f) start = .ok (b, finish) ↔
      ∃ a middle, x start = .ok (a, middle) ∧ f a middle = .ok (b, finish) := by
  change (x start >>= fun out => f out.1 out.2) = _ ↔ _
  cases x start with
  | error e => exact ⟨fun h => (by cases h), fun ⟨_, _, h, _⟩ => (by cases h)⟩
  | ok out =>
    exact ⟨fun h => ⟨out.1, out.2, rfl, h⟩, fun ⟨_, _, h, rest⟩ => by cases h; exact rest⟩

theorem pure_run_eq_ok {b : α} :
    (pure a : StateT σ (Except ε) α) start = .ok (b, finish) ↔ b = a ∧ finish = start := by
  change Except.ok (a, start) = _ ↔ _
  simp [eq_comm]

theorem liftM_run_eq_ok :
    (liftM x : StateT σ (Except ε) α) start = .ok (a, finish) ↔ x = .ok a ∧ finish = start := by
  change (x >>= fun a => Except.ok (a, start)) = _ ↔ _
  cases x with
  | error e => exact ⟨fun h => (by cases h), fun ⟨h, _⟩ => (by cases h)⟩
  | ok b =>
    change Except.ok (b, start) = _ ↔ _
    simp [eq_comm]

end Runs

end Metered
