import AgentContextLint.Lib.Metered

/-!
# Programs over a state that may stop

`Yields x a` says that the program `x` returns `a` from some state, and `Avoids x e` that it
stops with `e` from none. Both forget the state, so that what a program returns is read off its
checks, and what it never stops with off its parts.
-/

namespace StatefulRuns

open Metered

variable {σ ε α β : Type} {f : α → StateT σ (Except ε) β} {x : StateT σ (Except ε) α}
  {condition : Prop} {start finish : σ} {e : ε}

def Yields (x : StateT σ (Except ε) α) (a : α) : Prop := ∃ start finish, x start = .ok (a, finish)

def Avoids (x : StateT σ (Except ε) α) (e : ε) : Prop := ∀ start, x start ≠ .error e

/-- A check that stops with a given error. -/
def stopIf (condition : Prop) [Decidable condition] (e : ε) : StateT σ (Except ε) Unit :=
  fun state => if condition then .error e else .ok ((), state)

def stop (e : ε) : StateT σ (Except ε) α := fun _ => .error e

theorem yields_pure {a b : α} (ran : Yields (pure a : StateT σ (Except ε) α) b) : a = b := by
  rcases ran with ⟨start, finish, ran⟩
  cases ran
  rfl

theorem yields_bind {b : β} (ran : Yields (x >>= f) b) : ∃ a, Yields x a ∧ Yields (f a) b := by
  rcases ran with ⟨start, finish, ran⟩
  rcases bind_eq_ok.mp ran with ⟨⟨a, between⟩, first, second⟩
  exact ⟨a, ⟨start, between, first⟩, ⟨between, finish, second⟩⟩

theorem yields_stopIf [Decidable condition] {out : Unit}
    (ran : Yields (stopIf condition e : StateT σ (Except ε) Unit) out) : ¬ condition := by
  rcases ran with ⟨start, finish, ran⟩
  intro holds
  rw [stopIf, if_pos holds] at ran
  cases ran

theorem not_yields_stop {a : α} (ran : Yields (stop e : StateT σ (Except ε) α) a) : False := by
  rcases ran with ⟨start, finish, ran⟩
  cases ran

/-- A check in front of a program. -/
theorem yields_stopIf_bind [Decidable condition] {f : Unit → StateT σ (Except ε) β} {b : β}
    (ran : Yields (stopIf condition e >>= f) b) : ¬ condition ∧ Yields (f ()) b := by
  rcases yields_bind ran with ⟨_, passed, rest⟩
  exact ⟨yields_stopIf passed, rest⟩

/-- A program whose result is not used. -/
theorem yields_of_bind {b : β} (ran : Yields (x >>= f) b) : ∃ a, Yields (f a) b := by
  rcases yields_bind ran with ⟨a, _, rest⟩
  exact ⟨a, rest⟩

/-- A map returns what its program returns at every element. -/
theorem yields_mapM {g : α → β} {as : List α} {bs : List β}
    (each : ∀ a ∈ as, ∀ b, Yields (f a) b → b = g a) (ran : Yields (as.mapM f) bs) :
    bs = as.map g := by
  induction as generalizing bs with
  | nil =>
    rw [List.mapM_nil] at ran
    exact (yields_pure ran).symm
  | cons a as ih =>
    rw [List.mapM_cons] at ran
    rcases yields_bind ran with ⟨b, first, ran⟩
    rcases yields_bind ran with ⟨rest, later, ran⟩
    rw [← yields_pure ran, each a List.mem_cons_self b first,
      ih (fun c member => each c (List.mem_cons_of_mem a member)) later, List.map_cons]

/-- A loop that returns has passed every element. -/
theorem yields_forM {f : α → StateT σ (Except ε) Unit} {as : List α}
    (ran : Yields (as.forM f) ()) : ∀ a ∈ as, Yields (f a) () := by
  induction as with
  | nil => exact List.forall_mem_nil _
  | cons a as ih =>
    rcases yields_bind ran with ⟨_, first, later⟩
    exact List.forall_mem_cons.mpr ⟨first, ih later⟩

theorem avoids_pure (a : α) (e : ε) : Avoids (pure a : StateT σ (Except ε) α) e :=
  fun _ error => by cases error

theorem avoids_bind
    (first : Avoids x e) (second : ∀ a, Yields x a → Avoids (f a) e) : Avoids (x >>= f) e := by
  intro start error
  change (x start).bind (fun out => f out.1 out.2) = .error e at error
  cases ran : x start with
  | error e' =>
    rw [ran] at error
    cases error
    exact first start ran
  | ok out =>
    rw [ran] at error
    exact second out.1 ⟨start, out.2, ran⟩ out.2 error

theorem avoids_stopIf [Decidable condition] {e e' : ε} (other : e' ≠ e) :
    Avoids (stopIf condition e' : StateT σ (Except ε) Unit) e := by
  intro start error
  unfold stopIf at error
  split_ifs at error
  cases error
  exact other rfl

theorem avoids_stop {e e' : ε} (other : e' ≠ e) : Avoids (stop e' : StateT σ (Except ε) α) e :=
  fun _ error => other (Except.error.inj error)

/-! ## Runs with their states -/

theorem run_bind {b : β} : (x >>= f) start = .ok (b, finish) ↔
      ∃ a between, x start = .ok (a, between) ∧ f a between = .ok (b, finish) := by
  constructor
  · intro ran
    rcases bind_eq_ok.mp ran with ⟨⟨a, between⟩, first, second⟩
    exact ⟨a, between, first, second⟩
  · intro ⟨a, between, first, second⟩
    exact bind_eq_ok.mpr ⟨(a, between), first, second⟩

theorem run_stopIf_bind [Decidable condition] {f : Unit → StateT σ (Except ε) β} {b : β} :
    (stopIf condition e >>= f) start = .ok (b, finish) ↔
      ¬ condition ∧ f () start = .ok (b, finish) := by
  rw [run_bind]
  unfold stopIf
  split_ifs with holds
  · exact ⟨fun ⟨_, _, first, _⟩ => (by cases first), fun ⟨not, _⟩ => absurd holds not⟩
  · exact ⟨fun ⟨_, _, first, second⟩ => (by cases first; exact ⟨holds, second⟩),
      fun ⟨_, second⟩ => ⟨(), start, rfl, second⟩⟩

theorem run_stopIf [Decidable condition]
    {out : Unit} (ran : (stopIf condition e : StateT σ (Except ε) Unit) start = .ok (out, finish)) :
    ¬ condition ∧ start = finish := by
  unfold stopIf at ran
  split_ifs at ran with holds
  cases ran
  exact ⟨holds, rfl⟩

theorem run_pure {a b : α} :
    (pure a : StateT σ (Except ε) α) start = .ok (b, finish) ↔ a = b ∧ start = finish := by
  constructor
  · intro ran
    cases ran
    exact ⟨rfl, rfl⟩
  · intro ⟨same, still⟩
    rw [same, still]
    rfl

end StatefulRuns
