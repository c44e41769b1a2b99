import Mathlib.Data.List.Basic

/-!
# Promises and their jobs

A promise is settled once. The jobs that were attached to it till then go to the queue of the
program in their order, and a job that is attached later goes there at once. A program takes the
first job of its queue, whatever happens in between.
-/

namespace AgentContextLint

inductive PromiseState (ε : Type)
  | pending
  | fulfilled
  | rejected (error : ε)
  deriving DecidableEq

/-- A promise, with the jobs that wait for it. -/
structure Deferred (ε ι : Type) where
  state : PromiseState ε
  reactions : List ι
  deriving DecidableEq

namespace Deferred

variable {ε ι : Type} {promise : Deferred ε ι}

def waiting (reactions : List ι) : Deferred ε ι := ⟨.pending, reactions⟩

/-- The promise afterwards, and the jobs for the queue. -/
def settle (promise : Deferred ε ι) (outcome : PromiseState ε) : Deferred ε ι × List ι :=
  match promise.state with
  | .pending => (⟨outcome, []⟩, promise.reactions)
  | .fulfilled => (promise, [])
  | .rejected _ => (promise, [])

theorem settle_of_pending (isPending : promise.state = .pending)
    (outcome : PromiseState ε) : promise.settle outcome = (⟨outcome, []⟩, promise.reactions) := by
  unfold settle
  rw [isPending]

theorem settle_of_settled (settled : promise.state ≠ .pending)
    (outcome : PromiseState ε) : promise.settle outcome = (promise, []) := by
  unfold settle
  split
  · next isPending => exact absurd isPending settled
  · rfl
  · rfl

def attach (promise : Deferred ε ι) (job : ι) : Deferred ε ι × List ι :=
  match promise.state with
  | .pending => ({ promise with reactions := promise.reactions ++ [job] }, [])
  | .fulfilled => (promise, [job])
  | .rejected _ => (promise, [job])

theorem attach_of_pending (isPending : promise.state = .pending) (job : ι) :
    promise.attach job = ({ promise with reactions := promise.reactions ++ [job] }, []) := by
  unfold attach
  rw [isPending]

theorem attach_of_settled (settled : promise.state ≠ .pending) (job : ι) :
    promise.attach job = (promise, [job]) := by
  unfold attach
  split
  · next isPending => exact absurd isPending settled
  · rfl
  · rfl

end Deferred

end AgentContextLint
