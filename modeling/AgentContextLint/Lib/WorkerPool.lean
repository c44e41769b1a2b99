import Mathlib.Data.List.Perm.Basic
import Mathlib.Data.List.Range

/-!
# Worker pools

A fixed number of workers share a cursor over the jobs `0, …, size - 1` and a state. A worker
takes the job under the cursor; a job may be over at once, and then the worker takes the next
one, or it stays in flight until it settles, in whatever order the jobs in flight do. When a
job settles its result is recorded in the state, which may stop the pool: a stopped pool takes
no further jobs.

* `Reachable` is every pool some order of settling leads to.
* `Reachable.inFlight_length_le`, `Reachable.started`: no more jobs in flight than workers, and
  no job started twice.
-/

namespace WorkerPool

open List
open Relation (ReflTransGen)

/-! ## Jobs and pools -/

/-- Jobs over a shared state. -/
structure Jobs (σ : Type) where
  size : Nat
  /-- What a job does to the state if it is over as soon as it is taken. -/
  atOnce : Nat → Option (σ → σ)
  /-- What the settling of a job does to the state; `none` stops the pool. -/
  record : Nat → σ → Option σ

structure Pool (σ : Type) where
  next : Nat
  inFlight : List Nat
  /-- The jobs that are over, in the order in which they came to be. -/
  finished : List Nat
  stopped : Bool
  state : σ

variable {σ : Type} (jobs : Jobs σ)

/-- The job under the cursor is over at once. -/
def pass (change : σ → σ) (pool : Pool σ) : Pool σ :=
  { pool with
    next := pool.next + 1
    finished := pool.finished ++ [pool.next]
    state := change pool.state }

/-- The job under the cursor stays in flight. -/
def send (pool : Pool σ) : Pool σ :=
  { pool with next := pool.next + 1, inFlight := pool.inFlight ++ [pool.next] }

/-- A worker takes jobs until one of the `left` remaining ones stays in flight. -/
def take : (left : Nat) → Pool σ → Pool σ
  | 0, pool => pool
  | left + 1, pool =>
    match jobs.atOnce pool.next with
    | some change => take left (pass change pool)
    | none => send pool

/-- A free worker goes on with the job under the cursor. -/
def resume (pool : Pool σ) : Pool σ := take jobs (jobs.size - pool.next) pool

/-- The workers are started one after another. -/
def launch (initial : σ) : (workers : Nat) → Pool σ
  | 0 => ⟨0, [], [], false, initial⟩
  | workers + 1 => resume jobs (launch initial workers)

def close (i : Nat) (pool : Pool σ) : Pool σ :=
  { pool with inFlight := pool.inFlight.erase i, finished := pool.finished ++ [i] }

/-- The job settles: its worker records it and, unless the pool is stopped, goes on. -/
def settle (i : Nat) (pool : Pool σ) : Pool σ :=
  let closed := close i pool
  match pool.stopped, jobs.record i pool.state with
  | false, some state => resume jobs { closed with state := state }
  | false, none => { closed with stopped := true }
  | true, some state => { closed with state := state }
  | true, none => closed

/-- Any job in flight may be the next one to settle. -/
def Step (pool later : Pool σ) : Prop := ∃ i ∈ pool.inFlight, later = settle jobs i pool

def Reachable (initial : σ) (workers : Nat) (pool : Pool σ) : Prop :=
  ReflTransGen (Step jobs) (launch jobs initial workers) pool

/-- Nothing the pool may still do changes its outcome. -/
def Pool.Ended (pool : Pool σ) : Prop := pool.stopped = true ∨ pool.inFlight = []

/-- The state the pool has come to, or `none` if it was stopped. -/
def Pool.outcome (pool : Pool σ) : Option σ := if pool.stopped then none else some pool.state

/-! ## Recording jobs in a given order -/

/-- What a job does to the state, at once or when it settles. -/
def Jobs.absorb (i : Nat) (state : σ) : Option σ :=
  match jobs.atOnce i with
  | some change => some (change state)
  | none => jobs.record i state

/-- The jobs of a list absorbed one after another. -/
def Jobs.absorbAll (initial : σ) (order : List Nat) : Option σ :=
  order.foldl (fun state i => state.bind (jobs.absorb i)) (some initial)

/-- The records of two jobs may be exchanged. -/
def Jobs.Commute : Prop :=
  ∀ i j state, (jobs.absorb i state).bind (jobs.absorb j) = (jobs.absorb j state).bind (jobs.absorb i)

variable {jobs} {initial : σ}

theorem absorb_of_atOnce {i : Nat} {change : σ → σ} (immediate : jobs.atOnce i = some change)
    (state : σ) : jobs.absorb i state = some (change state) := by
  rw [Jobs.absorb, immediate]

theorem absorb_of_inFlight {i : Nat} (flies : jobs.atOnce i = none) (state : σ) :
    jobs.absorb i state = jobs.record i state := by
  rw [Jobs.absorb, flies]

theorem absorbAll_concat (order : List Nat) (i : Nat) :
    jobs.absorbAll initial (order ++ [i]) = (jobs.absorbAll initial order).bind (jobs.absorb i) := by
  rw [Jobs.absorbAll, foldl_append]
  rfl

theorem absorbAll_append_of_none {order : List Nat} (none : jobs.absorbAll initial order = none)
    (more : List Nat) : jobs.absorbAll initial (order ++ more) = .none := by
  induction more using reverseRecOn with
  | nil => rwa [append_nil]
  | append_singleton more i ih => rw [← append_assoc, absorbAll_concat, ih, Option.bind_none]

theorem absorbAll_perm (commute : jobs.Commute) {first second : List Nat}
    (perm : first.Perm second) : jobs.absorbAll initial first = jobs.absorbAll initial second := by
  apply perm.foldl_eq'
  intro i _ j _ state
  cases state with
  | none => rfl
  | some state => exact commute i j state

/-! ## What every reachable pool keeps -/

/-- The jobs below the cursor are in flight or over, each once, and the state is what those that
are over have made of it. -/
structure Pool.Ok (jobs : Jobs σ) (initial : σ) (pool : Pool σ) : Prop where
  next_le : pool.next ≤ jobs.size
  started : (pool.finished ++ pool.inFlight).Perm (range pool.next)
  flies : ∀ i ∈ pool.inFlight, jobs.atOnce i = none
  running : pool.stopped = false → jobs.absorbAll initial pool.finished = some pool.state
  stopping : pool.stopped = true →
    ∃ front, front <+: pool.finished ∧ jobs.absorbAll initial front = none

/-- `workers` workers are at work, or those that are not found no job left. -/
structure Pool.Busy (jobs : Jobs σ) (workers : Nat) (pool : Pool σ) : Prop where
  length_le : pool.inFlight.length ≤ workers
  all : pool.stopped = false → pool.inFlight.length = workers ∨ pool.next = jobs.size

variable {pool : Pool σ}

theorem range_succ_perm {front back : List Nat} {n : Nat} (perm : (front ++ back).Perm (range n)) :
    ((front ++ [n]) ++ back).Perm (range (n + 1)) := by
  have moved : ((front ++ [n]) ++ back).Perm ((front ++ back) ++ [n]) := by
    rw [append_assoc, append_assoc]
    exact perm_append_comm.append_left front
  rw [range_succ]
  exact moved.trans (perm.append_right [n])

section

variable (ok : pool.Ok jobs initial)

include ok

theorem Pool.Ok.pass {change : σ → σ}
    (running : pool.stopped = false) (left : pool.next < jobs.size)
    (immediate : jobs.atOnce pool.next = some change) : (pass change pool).Ok jobs initial where
  next_le := left
  started := range_succ_perm ok.started
  flies := ok.flies
  running _ := by
    show jobs.absorbAll initial (pool.finished ++ [pool.next]) = some (change pool.state)
    rw [absorbAll_concat, ok.running running]
    exact absorb_of_atOnce immediate _
  stopping stopped := by
    rcases ok.stopping stopped with ⟨front, within, none⟩
    exact ⟨front, within.trans (prefix_append _ _), none⟩

theorem Pool.Ok.send (left : pool.next < jobs.size)
    (flies : jobs.atOnce pool.next = none) : (send pool).Ok jobs initial where
  next_le := left
  started := by
    show (pool.finished ++ (pool.inFlight ++ [pool.next])).Perm (range (pool.next + 1))
    rw [← append_assoc, range_succ]
    exact ok.started.append_right [pool.next]
  flies i member := by
    rcases mem_append.mp member with old | new
    · exact ok.flies i old
    · rw [mem_singleton.mp new]
      exact flies
  running := ok.running
  stopping := ok.stopping

theorem Pool.Ok.take {left : Nat} (running : pool.stopped = false)
    (room : pool.next + left ≤ jobs.size) : (take jobs left pool).Ok jobs initial := by
  induction left generalizing pool with
  | zero => exact ok
  | succ left ih =>
    have unfinished : pool.next < jobs.size := by omega
    rw [WorkerPool.take]
    split
    next change immediate =>
      have room : (WorkerPool.pass change pool).next + left ≤ jobs.size := by
        show pool.next + 1 + left ≤ jobs.size
        omega
      exact ih (ok.pass running unfinished immediate) running room
    next flies => exact ok.send unfinished flies

theorem Pool.Ok.resume (running : pool.stopped = false) : (resume jobs pool).Ok jobs initial := by
  apply ok.take running
  rw [Nat.add_sub_of_le ok.next_le]

end

/-- A worker that resumes ends up with one more job in flight or leaves none behind the cursor. -/
theorem take_inFlight {left : Nat} (exhaust : pool.next + left = jobs.size) :
    (take jobs left pool).inFlight.length = pool.inFlight.length + 1 ∨
      (take jobs left pool).inFlight = pool.inFlight ∧ (take jobs left pool).next = jobs.size := by
  induction left generalizing pool with
  | zero => exact .inr ⟨rfl, exhaust⟩
  | succ left ih =>
    rw [take]
    split
    next change _ =>
      have exhaust : (pass change pool).next + left = jobs.size := by
        show pool.next + 1 + left = jobs.size
        omega
      exact ih exhaust
    · exact .inl length_append

theorem stopped_take (left : Nat) (pool : Pool σ) : (take jobs left pool).stopped = pool.stopped := by
  induction left generalizing pool with
  | zero => rfl
  | succ left ih =>
    rw [take]
    split
    next change _ => exact ih (pass change pool)
    · rfl

theorem finished_take (left : Nat) (pool : Pool σ) :
    pool.finished <+: (take jobs left pool).finished := by
  induction left generalizing pool with
  | zero => exact prefix_rfl
  | succ left ih =>
    rw [take]
    split
    next change _ => exact (prefix_append _ _).trans (ih (pass change pool))
    · exact prefix_rfl

theorem Pool.Busy.resume {workers : Nat} (next_le : pool.next ≤ jobs.size)
    (length_le : pool.inFlight.length ≤ workers)
    (all : pool.inFlight.length = workers ∨ pool.next = jobs.size) :
    (resume jobs pool).Busy jobs (workers + 1) := by
  rcases all with full | last
  · have exhaust : pool.next + (jobs.size - pool.next) = jobs.size := Nat.add_sub_of_le next_le
    rcases take_inFlight exhaust with more | ⟨same, last⟩
    · exact ⟨by rw [WorkerPool.resume, more, full], fun _ => .inl (by rw [WorkerPool.resume, more, full])⟩
    · exact ⟨by rw [WorkerPool.resume, same, full]; omega, fun _ => .inr last⟩
  · -- nothing is left behind the cursor, so nothing is taken
    have idle : WorkerPool.resume jobs pool = pool := by rw [WorkerPool.resume, last, Nat.sub_self, take]
    rw [idle]
    exact ⟨by omega, fun _ => .inr last⟩

/-! ## Launching and settling -/

theorem stopped_launch (workers : Nat) : (launch jobs initial workers).stopped = false := by
  induction workers with
  | zero => rfl
  | succ workers ih =>
    rw [launch, resume, stopped_take]
    exact ih

theorem ok_launch (workers : Nat) : (launch jobs initial workers).Ok jobs initial := by
  induction workers with
  | zero =>
    exact ⟨Nat.zero_le _, .refl _, fun _ member => absurd member not_mem_nil, fun _ => rfl,
      fun stopped => absurd stopped (by simp [launch])⟩
  | succ workers ih => exact ih.resume (stopped_launch workers)

theorem busy_launch (workers : Nat) : (launch jobs initial workers).Busy jobs workers := by
  induction workers with
  | zero => exact ⟨Nat.le_refl _, fun _ => .inl rfl⟩
  | succ workers ih =>
    have ok : (launch jobs initial workers).Ok jobs initial := ok_launch workers
    exact .resume ok.next_le ih.length_le (ih.all (stopped_launch workers))

section Settle

variable {i : Nat}

section

variable (ok : pool.Ok jobs initial)

include ok

theorem started_close (member : i ∈ pool.inFlight) :
    ((close i pool).finished ++ (close i pool).inFlight).Perm (range pool.next) := by
  show ((pool.finished ++ [i]) ++ pool.inFlight.erase i).Perm (range pool.next)
  rw [append_assoc]
  exact ((perm_cons_erase member).symm.append_left pool.finished).trans ok.started

theorem flies_close : ∀ j ∈ (close i pool).inFlight, jobs.atOnce j = none :=
  fun j member => ok.flies j (mem_of_mem_erase member)

theorem stopping_close (stopped : pool.stopped = true) :
    ∃ front, front <+: (close i pool).finished ∧ jobs.absorbAll initial front = none := by
  rcases ok.stopping stopped with ⟨front, within, none⟩
  exact ⟨front, within.trans (prefix_append _ _), none⟩

theorem Pool.Ok.settle (member : i ∈ pool.inFlight) : (settle jobs i pool).Ok jobs initial := by
  have recorded := absorb_of_inFlight (ok.flies i member) pool.state
  have started := started_close ok member
  unfold WorkerPool.settle
  dsimp only
  split
  next state running record =>
    have absorbed : jobs.absorbAll initial (pool.finished ++ [i]) = some state := by
      rw [absorbAll_concat, ok.running running, Option.bind_some, recorded, record]
    have closed : Pool.Ok jobs initial { close i pool with state := state } :=
      ⟨ok.next_le, started, flies_close ok, fun _ => absorbed, fun stopped => stopping_close ok stopped⟩
    exact closed.resume running
  next running record =>
    have absorbed : jobs.absorbAll initial (pool.finished ++ [i]) = none := by
      rw [absorbAll_concat, ok.running running, Option.bind_some, recorded, record]
    exact ⟨ok.next_le, started, flies_close ok, (fun running => by cases running),
      fun _ => ⟨_, prefix_rfl, absorbed⟩⟩
  all_goals
    next stopped _ =>
      refine ⟨ok.next_le, started, flies_close ok, fun running => ?_,
        fun _ => stopping_close ok stopped⟩
      cases stopped.symm.trans running

end

theorem length_close (member : i ∈ pool.inFlight) :
    (close i pool).inFlight.length + 1 = pool.inFlight.length := by
  have := length_pos_of_mem member
  show (pool.inFlight.erase i).length + 1 = _
  rw [length_erase_of_mem member]
  omega

theorem Pool.Busy.settle {workers : Nat} (busy : pool.Busy jobs workers)
    (next_le : pool.next ≤ jobs.size) (member : i ∈ pool.inFlight) :
    (settle jobs i pool).Busy jobs workers := by
  have length := length_close member
  have length_le := busy.length_le
  unfold WorkerPool.settle
  dsimp only
  split
  next state running _ =>
    rcases workers with _ | workers
    · omega
    · have length_le : (close i pool).inFlight.length ≤ workers := by omega
      apply @Pool.Busy.resume _ _ { close i pool with state := state } _ next_le length_le
      rcases busy.all running with full | last
      · exact .inl (show (close i pool).inFlight.length = workers by omega)
      · exact .inr last
  next => exact ⟨by dsimp only; omega, fun running => by cases running⟩
  all_goals
    next stopped _ =>
      refine ⟨?_, fun running => ?_⟩
      · show (close i pool).inFlight.length ≤ workers
        omega
      · cases stopped.symm.trans running

theorem finished_settle (i : Nat) (pool : Pool σ) :
    pool.finished ++ [i] <+: (settle jobs i pool).finished := by
  unfold settle
  dsimp only
  split
  next state _ _ => exact finished_take _ { close i pool with state := state }
  all_goals exact prefix_rfl

end Settle

/-! ## Whole runs -/

variable {workers : Nat}

section

variable (reachable : Reachable jobs initial workers pool)

include reachable

theorem Reachable.invariant : pool.Ok jobs initial ∧ pool.Busy jobs workers := by
  induction reachable with
  | refl => exact ⟨ok_launch workers, busy_launch workers⟩
  | tail _ step ih =>
    obtain ⟨ok, busy⟩ := ih
    obtain ⟨i, member, rfl⟩ := step
    exact ⟨ok.settle member, busy.settle ok.next_le member⟩

theorem Reachable.nodup : (pool.finished ++ pool.inFlight).Nodup :=
  reachable.invariant.1.started.nodup_iff.mpr nodup_range

theorem Reachable.inFlight_length_le :
    pool.inFlight.length ≤ workers := reachable.invariant.2.length_le

/-- A pool that ends without being stopped is through with every job, each once. -/
theorem Reachable.finished_perm (worker : workers ≠ 0) (running : pool.stopped = false)
    (landed : pool.inFlight = []) : pool.finished.Perm (range jobs.size) := by
  obtain ⟨ok, busy⟩ := reachable.invariant
  have last : pool.next = jobs.size := by
    rcases busy.all running with full | last
    · rw [landed] at full
      exact absurd full.symm worker
    · exact last
  have started := ok.started
  rwa [landed, append_nil, last] at started

end

/-- Whatever stops a pool stops the recording of the jobs in the order of their numbers, too. -/
theorem Pool.Ok.absorbAll_range (ok : pool.Ok jobs initial) (commute : jobs.Commute)
    (stopped : pool.stopped = true) : jobs.absorbAll initial (range jobs.size) = none := by
  obtain ⟨front, ⟨later, finished⟩, none⟩ := ok.stopping stopped
  -- the jobs not yet started complete those that are over to all the jobs
  have all : (front ++ (later ++ pool.inFlight ++ (range (jobs.size - pool.next)).map
      (pool.next + ·))).Perm (range jobs.size) := by
    have split := range_add (n := pool.next) (m := jobs.size - pool.next)
    rw [Nat.add_sub_of_le ok.next_le] at split
    rw [split, ← append_assoc, ← append_assoc, finished]
    exact ok.started.append_right _
  rw [← absorbAll_perm commute all]
  exact absorbAll_append_of_none none _

/-- The outcome of an ended pool is that of the jobs recorded in the order of their numbers. -/
theorem Reachable.outcome_eq (reachable : Reachable jobs initial workers pool)
    (worker : workers ≠ 0) (commute : jobs.Commute) (ended : pool.Ended) :
    pool.outcome = jobs.absorbAll initial (range jobs.size) := by
  have ok := reachable.invariant.1
  unfold Pool.outcome
  cases stopped : pool.stopped with
  | true => exact (ok.absorbAll_range commute stopped).symm
  | false =>
    have landed : pool.inFlight = [] := ended.resolve_left (by simp [stopped])
    rw [← absorbAll_perm commute (reachable.finished_perm worker stopped landed)]
    exact (ok.running stopped).symm

/-! ## Every run ends -/

theorem Pool.Ok.finished_length_le (ok : pool.Ok jobs initial) : pool.finished.length ≤ jobs.size := by
  have length := ok.started.length_eq
  rw [length_append, length_range] at length
  have := ok.next_le
  omega

/-- Each step brings a job to its end. -/
theorem Step.finished_length {later : Pool σ} (step : Step jobs pool later) :
    pool.finished.length < later.finished.length := by
  obtain ⟨i, _, rfl⟩ := step
  have longer : pool.finished ++ [i] <+: (settle jobs i pool).finished := finished_settle i pool
  have length_le := longer.length_le
  rw [length_append, length_singleton] at length_le
  omega

theorem Reachable.exists_ended (reachable : Reachable jobs initial workers pool) :
    ∃ last, ReflTransGen (Step jobs) pool last ∧ last.Ended := by
  induction left : jobs.size - pool.finished.length using Nat.strongRecOn generalizing pool with
  | ind left ih =>
    cases flying : pool.inFlight with
    | nil => exact ⟨pool, .refl, .inr flying⟩
    | cons i rest =>
      have step : Step jobs pool (settle jobs i pool) :=
        ⟨i, by rw [flying]; exact mem_cons_self, rfl⟩
      have later : Reachable jobs initial workers (settle jobs i pool) := .tail reachable step
      have bound := later.invariant.1.finished_length_le
      have progress := step.finished_length
      obtain ⟨last, run, ended⟩ := ih _ (by omega) later rfl
      exact ⟨last, .head step run, ended⟩

/-! ## Jobs that collect results -/

/-- Jobs that settle with a result each; the results are listed as they arrive. -/
def collecting {α : Type} (size : Nat) (result : Nat → α) : Jobs (List α) where
  size := size
  atOnce _ := none
  record i results := some (results ++ [result i])

section Collecting

variable {α : Type} {size : Nat} {result : Nat → α}

theorem absorbAll_collecting (order : List Nat) :
    (collecting size result).absorbAll [] order = some (order.map result) := by
  induction order using reverseRecOn with
  | nil => rfl
  | append_singleton front i ih =>
    rw [absorbAll_concat, ih, map_append]
    rfl

variable {pool : Pool (List α)}

theorem Reachable.running (reachable : Reachable (collecting size result) [] workers pool) :
    pool.stopped = false := by
  by_contra stopped
  obtain ⟨front, _, none⟩ := reachable.invariant.1.stopping (eq_true_of_ne_false stopped)
  rw [absorbAll_collecting] at none
  cases none

/-- However the jobs settle, the results are those of all the jobs, each once. -/
theorem Reachable.collected (reachable : Reachable (collecting size result) [] workers pool)
    (worker : size ≠ 0 → workers ≠ 0) (landed : pool.inFlight = []) :
    pool.state.Perm ((range size).map result) := by
  have ok := reachable.invariant.1
  have running := reachable.running
  have absorbed := ok.running running
  rw [absorbAll_collecting, Option.some.injEq] at absorbed
  rw [← absorbed]
  apply Perm.map
  by_cases empty : size = 0
  · have started := ok.started
    have next_le : pool.next ≤ size := ok.next_le
    have untouched : pool.next = 0 := by omega
    rw [landed, append_nil, untouched] at started
    rwa [empty]
  · exact reachable.finished_perm (worker empty) running landed

end Collecting

/-! ## Delays -/

/-- A pool with the turns that each job has waited since it was started. -/
structure Delayed (σ : Type) where
  pool : Pool σ
  turns : Nat → Nat

/-- Any job in flight may wait for another turn, until it has waited for all of its turns, and
then it may settle. -/
inductive DelayedStep (jobs : Jobs σ) (delay : Nat → Nat) : Delayed σ → Delayed σ → Prop
  | turn {pool : Pool σ} {turns : Nat → Nat} {i : Nat} (flies : i ∈ pool.inFlight)
      (early : turns i < delay i) :
      DelayedStep jobs delay ⟨pool, turns⟩ ⟨pool, Function.update turns i (turns i + 1)⟩
  | settle {pool : Pool σ} {turns : Nat → Nat} {i : Nat} (flies : i ∈ pool.inFlight)
      (due : turns i = delay i) : DelayedStep jobs delay ⟨pool, turns⟩ ⟨settle jobs i pool, turns⟩

/-- Every job waits for a number of turns before it settles. -/
def DelayedReachable (jobs : Jobs σ) (delay : Nat → Nat) (initial : σ) (workers : Nat)
    (delayed : Delayed σ) : Prop :=
  ReflTransGen (DelayedStep jobs delay) ⟨launch jobs initial workers, fun _ => 0⟩ delayed

section Delays

variable {delay : Nat → Nat} {turns : Nat → Nat}

/-- Delays only choose among the orders of settling. -/
theorem DelayedReachable.reachable {delayed : Delayed σ}
    (run : DelayedReachable jobs delay initial workers delayed) :
    Reachable jobs initial workers delayed.pool := by
  induction run with
  | refl => exact .refl
  | tail _ step ih =>
    cases step with
    | turn => exact ih
    | settle flies => exact .tail ih ⟨_, flies, rfl⟩

theorem exists_waited {i : Nat} (flies : i ∈ pool.inFlight) (within : ∀ j, turns j ≤ delay j) :
    ∃ waited, ReflTransGen (DelayedStep jobs delay) ⟨pool, turns⟩ ⟨pool, waited⟩ ∧
      waited i = delay i ∧ ∀ j, waited j ≤ delay j := by
  induction left : delay i - turns i generalizing turns with
  | zero => exact ⟨turns, .refl, Nat.le_antisymm (within i) (by omega), within⟩
  | succ fewer ih =>
    have early : turns i < delay i := by omega
    have later : ∀ j, Function.update turns i (turns i + 1) j ≤ delay j := by
      intro j
      rw [Function.update_apply]
      split_ifs with same
      · rw [same]
        exact early
      · exact within j
    have remaining : delay i - Function.update turns i (turns i + 1) i = fewer := by
      rw [Function.update_self]
      omega
    obtain ⟨waited, run, due, within⟩ := ih later remaining
    exact ⟨waited, .head (.turn flies early) run, due, within⟩

theorem exists_delayed {later : Pool σ} (run : ReflTransGen (Step jobs) pool later)
    (within : ∀ j, turns j ≤ delay j) :
    ∃ waited, ReflTransGen (DelayedStep jobs delay) ⟨pool, turns⟩ ⟨later, waited⟩ ∧
      ∀ j, waited j ≤ delay j := by
  induction run with
  | refl => exact ⟨turns, .refl, within⟩
  | tail _ step ih =>
    obtain ⟨waited, before, within⟩ := ih
    obtain ⟨i, flies, rfl⟩ := step
    obtain ⟨longer, waits, due, within⟩ := exists_waited flies within
    exact ⟨longer, (before.trans waits).tail (.settle flies due), within⟩

/-- A pool with delays comes to an end, too. -/
theorem exists_delayed_ended (jobs : Jobs σ) (delay : Nat → Nat) (initial : σ) (workers : Nat) :
    ∃ delayed, DelayedReachable jobs delay initial workers delayed ∧ delayed.pool.Ended := by
  have launched : Reachable jobs initial workers (launch jobs initial workers) := .refl
  obtain ⟨last, run, ended⟩ := launched.exists_ended
  obtain ⟨waited, delayed, _⟩ := exists_delayed run fun j => Nat.zero_le (delay j)
  exact ⟨⟨last, waited⟩, delayed, ended⟩

end Delays

end WorkerPool
