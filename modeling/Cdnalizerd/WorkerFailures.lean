/-
Workers whose connection fails.

When the constructor of the connection throws, or `reconnect` does, `doWork`
is left and the worker goes with its queue.  A ticket names the one worker it
was given to, so no other worker has the jobs that were in it.
-/

import Cdnalizerd.WorkerRuns

namespace Cdnalizerd

open Library

/-! ### Tickets and their workers -/

namespace Worker

theorem continueWork_pending_subset (worker : Worker) (queue : List Ticket) :
    (worker.continueWork queue).pending ⊆ queue := by
  induction queue with
  | nil => exact fun _ticket member => member
  | cons job queue ih =>
      unfold continueWork
      split
      · exact fun _ticket member => member
      · exact fun _ticket member => List.mem_cons_of_mem job (ih member)

theorem resume_pending_subset {worker after : Worker} {fails : Bool}
    (outcome : (worker.resume fails).1 = some after) : after.pending ⊆ worker.pending := by
  have queued : worker.queue ⊆ worker.pending := by
    unfold pending
    split
    · exact fun _ticket member => List.mem_cons_of_mem _ member
    · exact fun _ticket member => List.mem_cons_of_mem _ member
    · exact fun _ticket member => member
  have continued (other : Worker) :
      (other.continueWork worker.queue).pending ⊆ worker.pending :=
    fun _ticket member => queued (continueWork_pending_subset other worker.queue member)
  unfold resume at outcome
  cases point : worker.point with
  | spawned =>
      simp only [point, Option.some.injEq] at outcome
      subst outcome
      exact queued
  | connecting =>
      cases fails with
      | true => simp [point] at outcome
      | false =>
          simp only [point] at outcome
          split at outcome
          · obtain rfl := Option.some.inj outcome
            exact continued _
          · obtain rfl := Option.some.inj outcome
            exact queued
  | running job =>
      cases fails with
      | true =>
          simp only [point, Option.some.injEq] at outcome
          subst outcome
          unfold pending
          rw [point]
          exact fun _ticket member => member
      | false =>
          simp only [point, Option.some.injEq] at outcome
          subst outcome
          exact continued _
  | reconnecting job =>
      cases fails with
      | true =>
          simp only [point, Option.some.injEq] at outcome
          subst outcome
          exact queued
      | false =>
          simp only [point] at outcome
          split at outcome
          · obtain rfl := Option.some.inj outcome
            unfold pending
            rw [point]
            exact fun _ticket member => member
          · obtain rfl := Option.some.inj outcome
            exact continued _
  | idling =>
      simp only [point] at outcome
      split at outcome
      · obtain rfl := Option.some.inj outcome
        exact continued _
      · obtain rfl := Option.some.inj outcome
        exact queued
  | closing => simp [point] at outcome

end Worker

def Worker.HasOwn (number : Nat) (worker : Worker) : Prop :=
  ∀ ticket ∈ worker.pending, ticket.worker = number

structure Pool.OwnTickets (pool : Pool) : Prop where
  listed_lt : ∀ url, ∀ number ∈ pool.workers url, number < pool.nextWorker
  listed_once : ∀ url, (pool.workers url).Nodup
  own : ∀ url, ∀ number ∈ pool.workers url, (pool.worker number).HasOwn number

theorem Pool.ownTickets_empty : ({} : Pool).OwnTickets where
  listed_lt _url _number member := absurd member List.not_mem_nil
  listed_once _url := List.nodup_nil
  own _url _number member := absurd member List.not_mem_nil

theorem Pool.nextWorker_le_getWorker (pool : Pool) (url : Bytes) :
    pool.nextWorker ≤ (pool.getWorker url).nextWorker := by
  unfold getWorker
  split
  · exact Nat.le_succ _
  · exact Nat.le_refl _

theorem Pool.listed_getWorker {pool : Pool} (owns : pool.OwnTickets) (url : Bytes) :
    (∀ other, ∀ number ∈ (pool.getWorker url).workers other,
        number < (pool.getWorker url).nextWorker) ∧
      ∀ other, ((pool.getWorker url).workers other).Nodup := by
  constructor
  · intro other number member
    rcases Pool.mem_getWorker member with ⟨fresh, room, _same⟩ | listed
    · unfold getWorker
      rw [if_pos room, fresh]
      exact Nat.lt_succ_self _
    · exact Nat.lt_of_lt_of_le (owns.listed_lt other number listed)
        (pool.nextWorker_le_getWorker url)
  · intro other
    unfold getWorker
    split
    · by_cases same : other = url
      · subst same
        dsimp only
        rw [Function.update_self]
        refine List.nodup_cons.mpr ⟨?_, owns.listed_once other⟩
        intro member
        exact Nat.lt_irrefl _ (owns.listed_lt other _ member)
      · dsimp only
        rw [Function.update_of_ne same]
        exact owns.listed_once other
    · exact owns.listed_once other

theorem Pool.OwnTickets.step {pool next : Pool} {label : PoolLabel} (owns : pool.OwnTickets)
    (stepped : pool.step label = some next) : next.OwnTickets := by
  have own : ∀ url, ∀ number ∈ next.workers url, (next.worker number).HasOwn number := by
    refine @Pool.numbered_of_step Worker.HasOwn _ _ _ stepped owns.own ?_ ?_ ?_
    · exact fun _url ticket member => absurd member List.not_mem_nil
    · intro url job _labelled worker ticket _same given held other member
      rw [Worker.pending_queued] at member
      rcases List.mem_append.mp member with old | new
      · exact held other old
      · rw [List.mem_singleton.mp new]
        exact given
    · exact fun _url _number _fails _labelled held after outcome ticket member =>
        held ticket (Worker.resume_pending_subset outcome member)
  cases label with
  | request url job =>
      obtain ⟨lt, once⟩ := Pool.listed_getWorker owns url
      cases job with
      | none =>
          obtain rfl := Option.some.inj stepped
          exact ⟨lt, once, own⟩
      | some job =>
          obtain rfl := Option.some.inj stepped
          exact ⟨lt, once, own⟩
  | resume url number fails =>
      obtain ⟨listed, ⟨after, outcome, rfl⟩ | ⟨_outcome, rfl⟩⟩ :=
        Pool.step_resume_cases stepped
      · exact ⟨owns.listed_lt, owns.listed_once, own⟩
      · refine ⟨?_, ?_, own⟩
        · intro other index member
          exact owns.listed_lt other index (Pool.mem_of_mem_erased member)
        · intro other
          dsimp only
          by_cases same : other = url
          · subst same
            rw [Function.update_self]
            exact (owns.listed_once other).erase number
          · rw [Function.update_of_ne same]
            exact owns.listed_once other

/-! ### How `doWork` ends -/

structure FailingPool where
  pool : Pool := {}
  broken : List Nat := []

/-- The worker whose constructor or reconnect throws in a step. -/
def Pool.brokenBy (pool : Pool) : PoolLabel → List Nat
  | .resume _url number true =>
      match (pool.worker number).point with
      | .connecting => [number]
      | .reconnecting _job => [number]
      | _ => []
  | _ => []

def FailingPool.step (state : FailingPool) (label : PoolLabel) : Option FailingPool :=
  (state.pool.step label).map fun next =>
    ⟨next, state.pool.brokenBy label ++ state.broken⟩

/-- The jobs that go with the worker in a step: its queue when the constructor
throws, the queue and a job with attempts left when `reconnect` throws, and what
was queued since when its connection is shut down. -/
def FailingPool.endangered (state : FailingPool) : PoolLabel → List Ticket
  | .request _url _job => []
  | .resume _url number fails =>
      let worker := state.pool.worker number
      match worker.point with
      | .connecting => if fails then worker.queue else []
      | .reconnecting job =>
          if fails then
            (if worker.retries + 1 ≤ maxRetries then [job] else []) ++ worker.queue
          else []
      | .closing => if state.broken.contains number then worker.queue else []
      | _ => []

def PoolLabel.url : PoolLabel → Bytes
  | .request url _job => url
  | .resume url _number _fails => url

/-- A worker of the URL that has not left `doWork` has the job. -/
def Pool.Available (pool : Pool) (url : Bytes) (ticket : Ticket) : Prop :=
  ∃ number ∈ pool.workers url, (pool.worker number).point ≠ .closing ∧
    ticket ∈ (pool.worker number).pending

/-- The jobs that go with a worker are still to be had in the state after. -/
def FailingPool.Keeps (state : FailingPool) (label : PoolLabel) (next : FailingPool) : Prop :=
  ∀ ticket ∈ state.endangered label, next.pool.Available label.url ticket

/-- What goes with a worker is one of its own jobs, and the worker is gone or
closing afterwards. -/
theorem FailingPool.endangered_cases {state : FailingPool} {url : Bytes} {number : Nat}
    {fails : Bool} {ticket : Ticket}
    (member : ticket ∈ state.endangered (.resume url number fails)) :
    ticket ∈ (state.pool.worker number).pending ∧
      ∀ after, ((state.pool.worker number).resume fails).1 = some after →
        after.point = .closing := by
  unfold FailingPool.endangered at member
  dsimp only at member
  cases point : (state.pool.worker number).point with
  | spawned => simp [point] at member
  | running job => simp [point] at member
  | idling => simp [point] at member
  | connecting =>
      cases fails with
      | false => simp [point] at member
      | true =>
          simp only [point, if_true] at member
          refine ⟨by simpa only [Worker.pending, point] using member, ?_⟩
          intro after outcome
          simp [Worker.resume, point] at outcome
  | reconnecting job =>
      cases fails with
      | false => simp [point] at member
      | true =>
          simp only [point, if_true] at member
          refine ⟨?_, ?_⟩
          · simp only [Worker.pending, point]
            rcases List.mem_append.mp member with retried | queued
            · split at retried
              · rw [List.mem_singleton.mp retried]
                exact List.mem_cons_self
              · cases retried
            · exact List.mem_cons_of_mem job queued
          · intro after outcome
            simp only [Worker.resume, point, Option.some.injEq] at outcome
            rw [← outcome]
  | closing =>
      simp only [point] at member
      split at member
      · refine ⟨by simpa only [Worker.pending, point] using member, ?_⟩
        intro after outcome
        simp [Worker.resume, point] at outcome
      · cases member

/-- What goes with a worker is lost: no other worker has it. -/
theorem FailingPool.not_available {state next : FailingPool} {label : PoolLabel}
    (owns : state.pool.OwnTickets) (stepped : state.step label = some next) {ticket : Ticket}
    (endangered : ticket ∈ state.endangered label) :
    ¬ next.pool.Available label.url ticket := by
  obtain ⟨after, poolStepped, rfl⟩ := Option.map_eq_some_iff.mp stepped
  have owned := owns.step poolStepped
  cases label with
  | request url job => cases endangered
  | resume url number fails =>
      obtain ⟨pending, closes⟩ := FailingPool.endangered_cases endangered
      obtain ⟨listed, outcome⟩ := Pool.step_resume_cases poolStepped
      have given : ticket.worker = number := owns.own url number listed ticket pending
      rintro ⟨other, otherListed, working, otherPending⟩
      have same : other = number := by
        rw [← owned.own url other otherListed ticket otherPending, given]
      subst same
      rcases outcome with ⟨resumed, outcome, rfl⟩ | ⟨_outcome, rfl⟩
      · apply working
        dsimp only
        rw [Function.update_self]
        exact closes resumed outcome
      · dsimp only [PoolLabel.url] at otherListed
        rw [Function.update_self] at otherListed
        exact (owns.listed_once url).not_mem_erase otherListed

theorem FailingPool.keeps_iff {state next : FailingPool} {label : PoolLabel}
    (owns : state.pool.OwnTickets) (stepped : state.step label = some next) :
    state.Keeps label next ↔ state.endangered label = [] := by
  constructor
  · intro keeps
    apply List.eq_nil_iff_forall_not_mem.mpr
    intro ticket endangered
    exact FailingPool.not_available owns stepped endangered (keeps ticket endangered)
  · intro nothing ticket endangered
    rw [nothing] at endangered
    cases endangered

theorem FailingPool.owns_step {state next : FailingPool} {label : PoolLabel}
    (owns : state.pool.OwnTickets) (stepped : state.step label = some next) :
    next.pool.OwnTickets := by
  obtain ⟨after, poolStepped, rfl⟩ := Option.map_eq_some_iff.mp stepped
  exact owns.step poolStepped

theorem FailingPool.keeps_along_iff (labels : List PoolLabel) :
    Runs.Along FailingPool.step FailingPool.Keeps {} labels ↔
      Runs.Along FailingPool.step (fun state label _next => state.endangered label = [])
        {} labels :=
  Runs.along_congr (fun state => state.pool.OwnTickets)
    (fun _state _label _next owns stepped => FailingPool.owns_step owns stepped)
    (fun _state _label _next owns stepped => FailingPool.keeps_iff owns stepped)
    Pool.ownTickets_empty labels

/-- In every run, whatever fails in it, no job is lost with a worker whose
connection failed exactly if no such worker has a job when it goes: an empty
queue, and no attempt left for the job that `reconnect` was called for. -/
theorem failing_workers_keep_jobs_iff (labels : List PoolLabel) :
    Runs.Along FailingPool.step FailingPool.Keeps {} labels ↔
      Runs.Along FailingPool.step (fun state label _next => state.endangered label = [])
        {} labels :=
  FailingPool.keeps_along_iff labels

/-- One job, and a constructor that throws: the job is gone. -/
theorem failed_connect_loses_job :
    let labels : List PoolLabel :=
      [.request (text "u") (some (.remoteDelete sampleBase)),
        .resume (text "u") 0 false, .resume (text "u") 0 true]
    ¬ Runs.Along FailingPool.step FailingPool.Keeps {} labels := by
  intro labels keeps
  have nothing := (FailingPool.keeps_along_iff labels).mp keeps
  exact List.cons_ne_nil _ _ nothing.2.2.1

end Cdnalizerd
