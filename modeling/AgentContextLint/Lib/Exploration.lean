import Mathlib.Data.List.Basic

/-!
# Exploration of a machine

`run` admits a sequence of events, or it does not. States that are closed under the admitted
events hold every state that a run from one of them reaches (`mem_of_run`); `explore` collects
such states, one frontier after the other.
-/

namespace AgentContextLint.Exploration

variable {σ ε : Type} (step : σ → ε → Option σ)

def run : σ → List ε → Option σ
  | state, [] => some state
  | state, event :: rest => (step state event).bind (run · rest)

variable {step}

theorem run_cons {state last : σ} {event : ε} {rest : List ε} :
    run step state (event :: rest) = some last ↔
      ∃ next, step state event = some next ∧ run step next rest = some last :=
  Option.bind_eq_some_iff

variable (step) (events : List ε)

def successors (state : σ) : List σ := events.filterMap (step state)

def IsClosed (states : List σ) : Prop :=
  ∀ state ∈ states, ∀ next ∈ successors step events state, next ∈ states

instance [DecidableEq σ] (states : List σ) : Decidable (IsClosed step events states) :=
  inferInstanceAs (Decidable (∀ state ∈ states, ∀ next ∈ successors step events state,
    next ∈ states))

variable {step events}

theorem mem_of_run {states : List σ} (closed : IsClosed step events states)
    (all : ∀ event, event ∈ events) {ran : List ε} {state last : σ} (member : state ∈ states)
    (runs : run step state ran = some last) : last ∈ states := by
  induction ran generalizing state with
  | nil =>
    cases runs
    exact member
  | cons event rest ih =>
    rcases run_cons.mp runs with ⟨next, first, later⟩
    exact ih (closed state member next (List.mem_filterMap.mpr ⟨event, all event, first⟩)) later

variable (step events)

/-- The states seen so far, and those that the frontier leads to within some rounds. -/
def explore [DecidableEq σ] : (rounds : Nat) → (seen frontier : List σ) → List σ
  | 0, seen, _ => seen
  | _, seen, [] => seen
  | rounds + 1, seen, state :: rest =>
    let found := ((successors step events state).filter (· ∉ seen)).eraseDups
    explore rounds (seen ++ found) (rest ++ found)

end AgentContextLint.Exploration
