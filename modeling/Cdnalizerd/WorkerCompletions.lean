/-
What workers complete, whatever fails.

A resumed worker completes the first of its pending jobs or none, and may drop
some of the others.  So no job is completed twice, and the completed jobs of a
worker are some of those it was given, in their order.
-/

import Cdnalizerd.WorkerFailures
import Cdnalizerd.WorkerOrder

namespace Cdnalizerd

open Library

/-! ### Resuming a worker -/

namespace Worker

/-- How a worker leaves the switch point it waits at, and is not gone then. -/
inductive Resumed (worker : Worker) : Worker → Option Ticket → Prop where
  | begun (point : worker.point = .spawned) :
      Resumed worker { worker with state := .working, point := .connecting } none
  | unneeded (point : worker.point = .connecting) (empty : worker.queue = []) :
      Resumed worker { worker with point := .closing } none
  | connected (point : worker.point = .connecting) (queued : worker.queue ≠ []) :
      Resumed worker (worker.continueWork worker.queue) none
  | completed (job : Ticket) (point : worker.point = .running job) :
      Resumed worker (worker.continueWork worker.queue) (some job)
  | interrupted (job : Ticket) (point : worker.point = .running job) :
      Resumed worker { worker with point := .reconnecting job } none
  | cutOff (job : Ticket) (point : worker.point = .reconnecting job) :
      Resumed worker { worker with point := .closing } none
  | retried (job : Ticket) (point : worker.point = .reconnecting job)
      (budget : worker.retries + 1 ≤ maxRetries) :
      Resumed worker { worker with retries := worker.retries + 1, point := .running job } none
  | givenUp (job : Ticket) (point : worker.point = .reconnecting job)
      (spent : ¬ worker.retries + 1 ≤ maxRetries) :
      Resumed worker
        ({ worker with retries := worker.retries + 1 }.continueWork worker.queue) none
  | expired (point : worker.point = .idling) (empty : worker.queue = []) :
      Resumed worker { worker with state := .dead, point := .closing } none
  | woken (point : worker.point = .idling) (queued : worker.queue ≠ []) :
      Resumed worker ({ worker with state := .working }.continueWork worker.queue) none

theorem resumed_of_resume {worker after : Worker} {fails : Bool}
    (outcome : (worker.resume fails).1 = some after) :
    Resumed worker after (worker.resume fails).2 := by
  have queued_iff := hasMoreJobs_iff worker
  unfold resume at outcome ⊢
  cases point : worker.point with
  | spawned =>
      simp only [point, Option.some.injEq] at outcome ⊢
      exact outcome ▸ Resumed.begun point
  | connecting =>
      cases fails with
      | true => simp [point] at outcome
      | false =>
          by_cases queued : worker.hasMoreJobs = true
          · simp only [point, queued, if_true, Option.some.injEq] at outcome ⊢
            exact outcome ▸ Resumed.connected point (queued_iff.mp queued)
          · simp only [point, queued, Bool.false_eq_true, if_false, Option.some.injEq] at outcome ⊢
            exact outcome ▸ Resumed.unneeded point (not_not.mp (mt queued_iff.mpr queued))
  | running job =>
      cases fails with
      | true =>
          simp only [point, Option.some.injEq] at outcome ⊢
          exact outcome ▸ Resumed.interrupted job point
      | false =>
          simp only [point, Option.some.injEq] at outcome ⊢
          exact outcome ▸ Resumed.completed job point
  | reconnecting job =>
      cases fails with
      | true =>
          simp only [point, Option.some.injEq] at outcome ⊢
          exact outcome ▸ Resumed.cutOff job point
      | false =>
          by_cases budget : worker.retries + 1 ≤ maxRetries
          · simp only [point, budget, if_true, Option.some.injEq] at outcome ⊢
            exact outcome ▸ Resumed.retried job point budget
          · simp only [point, budget, if_false, Option.some.injEq] at outcome ⊢
            have givenUp := Resumed.givenUp job point budget
            rw [point] at givenUp
            exact outcome ▸ givenUp
  | idling =>
      by_cases queued : worker.hasMoreJobs = true
      · simp only [point, queued, if_true, Option.some.injEq] at outcome ⊢
        have woken := Resumed.woken point (queued_iff.mp queued)
        rw [point] at woken
        exact outcome ▸ woken
      · simp only [point, queued, Bool.false_eq_true, if_false, Option.some.injEq] at outcome ⊢
        exact outcome ▸ Resumed.expired point (not_not.mp (mt queued_iff.mpr queued))
  | closing =>
      simp only [point] at outcome
      cases outcome

/-- A worker that is gone has completed nothing with its last step. -/
theorem done_of_gone {worker : Worker} {fails : Bool} (gone : (worker.resume fails).1 = none) :
    (worker.resume fails).2 = none := by
  unfold resume at gone ⊢
  cases point : worker.point with
  | spawned => simp [point] at gone
  | connecting =>
      cases fails with
      | true => rfl
      | false =>
          simp only [point] at gone
          split at gone
          · cases gone
          · cases gone
  | running job => cases fails <;> simp [point] at gone
  | reconnecting job =>
      cases fails with
      | true => simp [point] at gone
      | false =>
          simp only [point] at gone
          split at gone
          · cases gone
          · cases gone
  | idling =>
      simp only [point] at gone
      split at gone
      · cases gone
      · cases gone
  | closing => rfl

/-- A worker completes the job it attempts, and only if the attempt does not fail. -/
theorem done_of_resume {worker : Worker} {fails : Bool} {ticket : Ticket}
    (done : (worker.resume fails).2 = some ticket) :
    worker.point = .running ticket ∧ fails = false := by
  unfold resume at done
  split at done
  · cases done
  · cases done
  · split at done
    · cases done
    · cases done
  · cases done
  · rename_i job running
    obtain rfl := Option.some.inj done
    exact ⟨running, rfl⟩
  · cases done
  · dsimp only at done
    split at done
    · cases done
    · cases done
  · split at done
    · cases done
    · cases done
  · cases done

/-- The loop of `doWork` drops jobs from the front. -/
theorem continueWork_pending_sublist (worker : Worker) (queue : List Ticket) :
    (worker.continueWork queue).pending.Sublist queue := by
  induction queue with
  | nil => exact List.Sublist.refl _
  | cons job queue ih =>
      unfold continueWork
      split
      · exact List.Sublist.refl _
      · exact ih.cons job

theorem Resumed.pending_sublist {worker after : Worker} {done : Option Ticket}
    (resumed : Resumed worker after done) :
    (done.toList ++ after.pending).Sublist worker.pending := by
  have continued (other : Worker) := continueWork_pending_sublist other worker.queue
  cases resumed with
  | begun point =>
      simp only [pending, point, Option.toList_none, List.nil_append]
      exact List.Sublist.refl _
  | unneeded point empty =>
      simp only [pending, point, Option.toList_none, List.nil_append]
      exact List.Sublist.refl _
  | connected point queued =>
      simp only [pending.eq_def worker, point, Option.toList_none, List.nil_append]
      exact continued _
  | completed job point =>
      simp only [pending.eq_def worker, point, Option.toList_some, List.singleton_append]
      exact (continued _).cons_cons job
  | interrupted job point =>
      simp only [pending, point, Option.toList_none, List.nil_append]
      exact List.Sublist.refl _
  | cutOff job point =>
      simp only [pending, point, Option.toList_none, List.nil_append]
      exact List.sublist_cons_self _ _
  | retried job point budget =>
      simp only [pending, point, Option.toList_none, List.nil_append]
      exact List.Sublist.refl _
  | givenUp job point spent =>
      simp only [pending.eq_def worker, point, Option.toList_none, List.nil_append]
      exact (continued _).cons job
  | expired point empty =>
      simp only [pending, point, Option.toList_none, List.nil_append]
      exact List.Sublist.refl _
  | woken point queued =>
      simp only [pending.eq_def worker, point, Option.toList_none, List.nil_append]
      exact continued _

end Worker

/-! ### Completed jobs -/

/-- The jobs a worker has completed and those it has still to do are some of
those it was given, in their order. -/
structure Pool.KeepsOrder (pool : Pool) : Prop where
  owns : pool.OwnTickets
  added_lt : ∀ ticket ∈ pool.added, ticket.worker < pool.nextWorker
  id_lt : ∀ ticket ∈ pool.added, ticket.id < pool.nextJob
  ascending : pool.added.Pairwise fun left right => left.id < right.id
  flow : ∀ url, ∀ number ∈ pool.workers url,
    (ticketsOf number pool.executed ++ (pool.worker number).pending).Sublist
      (ticketsOf number pool.added)
  completed : ∀ number,
    (ticketsOf number pool.executed).Sublist (ticketsOf number pool.added)

theorem Pool.keepsOrder_empty : ({} : Pool).KeepsOrder where
  owns := Pool.ownTickets_empty
  added_lt _ticket member := absurd member List.not_mem_nil
  id_lt _ticket member := absurd member List.not_mem_nil
  ascending := List.Pairwise.nil
  flow _url _number member := absurd member List.not_mem_nil
  completed _number := List.Sublist.refl _

namespace Pool

variable {pool next : Pool} {url : Bytes} {number : Nat}

theorem KeepsOrder.completed_next (ordered : pool.KeepsOrder) :
    ticketsOf pool.nextWorker pool.executed = [] := by
  have none_added : ticketsOf pool.nextWorker pool.added = [] := by
    apply List.filter_eq_nil_iff.mpr
    intro ticket member same
    have bound := ordered.added_lt ticket member
    rw [of_decide_eq_true same] at bound
    exact Nat.lt_irrefl _ bound
  have among := ordered.completed pool.nextWorker
  rw [none_added] at among
  exact List.sublist_nil.mp among

theorem KeepsOrder.getWorker (ordered : pool.KeepsOrder) (url : Bytes) :
    (pool.getWorker url).KeepsOrder where
  owns := @Pool.OwnTickets.step _ _ (.request url none) ordered.owns rfl
  added_lt := by
    intro ticket member
    rw [Pool.getWorker_added] at member
    exact Nat.lt_of_lt_of_le (ordered.added_lt ticket member) (pool.nextWorker_le_getWorker url)
  id_lt := by
    intro ticket member
    rw [Pool.getWorker_added] at member
    unfold Pool.getWorker
    split
    · exact ordered.id_lt ticket member
    · exact ordered.id_lt ticket member
  ascending := by
    rw [Pool.getWorker_added]
    exact ordered.ascending
  flow := by
    intro other index member
    rw [Pool.getWorker_added, Pool.getWorker_executed, Pool.worker_getWorker]
    split
    · rename_i fresh
      rw [fresh.1, ordered.completed_next]
      exact List.nil_sublist _
    · rename_i old
      rcases Pool.mem_getWorker member with ⟨fresh, room, _same⟩ | listed
      · exact absurd ⟨fresh, room⟩ old
      · exact ordered.flow other index listed
  completed := by
    rw [Pool.getWorker_added, Pool.getWorker_executed]
    exact ordered.completed

theorem KeepsOrder.addJob (ordered : pool.KeepsOrder) (listed : number ∈ pool.workers url)
    (job : Job) (owns : (pool.addJob number job).OwnTickets) :
    (pool.addJob number job).KeepsOrder where
  owns := owns
  added_lt := by
    intro ticket member
    rcases List.mem_append.mp member with old | new
    · exact ordered.added_lt ticket old
    · rw [List.mem_singleton.mp new]
      exact ordered.owns.listed_lt url number listed
  id_lt := by
    intro ticket member
    rcases List.mem_append.mp member with old | new
    · exact Nat.lt_succ_of_lt (ordered.id_lt ticket old)
    · rw [List.mem_singleton.mp new]
      exact Nat.lt_succ_self _
  ascending := by
    apply List.pairwise_append.mpr
    refine ⟨ordered.ascending, List.pairwise_singleton _ _, ?_⟩
    intro left old right new
    rw [List.mem_singleton.mp new]
    exact ordered.id_lt left old
  flow := by
    intro other index member
    have flow := ordered.flow other index member
    dsimp only [Pool.addJob]
    by_cases same : index = number
    · subst same
      have own : ticketsOf index [⟨pool.nextJob, job, index⟩] = [⟨pool.nextJob, job, index⟩] :=
        ticketsOf_own (by simp)
      rw [Function.update_self, Worker.pending_queued, ticketsOf_append index pool.added, own,
        ← List.append_assoc]
      exact flow.append (List.Sublist.refl _)
    · rw [Function.update_of_ne same, ticketsOf_append]
      exact flow.trans (List.sublist_append_left _ _)
  completed := by
    intro index
    dsimp only [Pool.addJob]
    rw [ticketsOf_append]
    exact (ordered.completed index).trans (List.sublist_append_left _ _)

/-- A resumed worker leaves the completed jobs of the others alone. -/
theorem KeepsOrder.resume (ordered : pool.KeepsOrder) {fails : Bool}
    (stepped : pool.step (.resume url number fails) = some next) : next.KeepsOrder := by
  have owns := ordered.owns.step stepped
  obtain ⟨listed, ⟨after, outcome, rfl⟩ | ⟨gone, rfl⟩⟩ := Pool.step_resume_cases stepped
  · have among := (Worker.resumed_of_resume outcome).pending_sublist
    have own : ∀ ticket ∈ ((pool.worker number).resume fails).2.toList,
        ticket.worker = number := by
      intro ticket member
      exact ordered.owns.own url number listed ticket
        (among.subset (List.mem_append_left _ member))
    have flow := ((List.Sublist.refl (ticketsOf number pool.executed)).append among).trans
      (ordered.flow url number listed)
    rw [← List.append_assoc] at flow
    have elsewhere (index : Nat) (different : index ≠ number) :
        ticketsOf index (pool.executed ++ ((pool.worker number).resume fails).2.toList) =
          ticketsOf index pool.executed := by
      rw [ticketsOf_append, ticketsOf_other own (Ne.symm different), List.append_nil]
    refine ⟨owns, ordered.added_lt, ordered.id_lt, ordered.ascending, ?_, ?_⟩
    · intro other index member
      dsimp only
      by_cases same : index = number
      · subst same
        rw [Function.update_self, ticketsOf_append, ticketsOf_own own]
        exact flow
      · rw [Function.update_of_ne same, elsewhere index same]
        exact ordered.flow other index member
    · intro index
      dsimp only
      by_cases same : index = number
      · subst same
        rw [ticketsOf_append, ticketsOf_own own]
        exact (List.sublist_append_left _ _).trans flow
      · rw [elsewhere index same]
        exact ordered.completed index
  · rw [Worker.done_of_gone gone, Option.toList_none, List.append_nil] at owns ⊢
    exact ⟨owns, ordered.added_lt, ordered.id_lt, ordered.ascending,
      fun other index member => ordered.flow other index (Pool.mem_of_mem_erased member),
      ordered.completed⟩

theorem KeepsOrder.step (ordered : pool.KeepsOrder) {label : PoolLabel}
    (stepped : pool.step label = some next) : next.KeepsOrder := by
  have owns := ordered.owns.step stepped
  cases label with
  | request url job =>
      cases job with
      | none =>
          obtain rfl := Option.some.inj stepped
          exact ordered.getWorker url
      | some job =>
          obtain rfl := Option.some.inj stepped
          exact (ordered.getWorker url).addJob (pool.picked_mem_getWorker url) job owns
  | resume url number fails => exact ordered.resume stepped

abbrev AnyRun : Pool → Pool → Prop :=
  Runs.Run Pool.step fun _pool _label => True

theorem keepsOrder_of_run (run : AnyRun {} pool) : pool.KeepsOrder :=
  Runs.invariant_of_run run Pool.keepsOrder_empty
    (fun _before _label _after ordered _allowed stepped => ordered.step stepped)

theorem KeepsOrder.added_nodup (ordered : pool.KeepsOrder) : pool.added.Nodup := by
  apply ordered.ascending.imp
  intro left right earlier same
  rw [same] at earlier
  exact Nat.lt_irrefl _ earlier

theorem KeepsOrder.count_executed_le (ordered : pool.KeepsOrder) (ticket : Ticket) :
    pool.executed.count ticket ≤ pool.added.count ticket := by
  rw [← count_ticketsOf pool.executed, ← count_ticketsOf pool.added]
  exact (ordered.completed ticket.worker).count_le ticket

theorem KeepsOrder.executed_nodup (ordered : pool.KeepsOrder) : pool.executed.Nodup := by
  apply List.nodup_iff_count_le_one.mpr
  intro ticket
  exact (ordered.count_executed_le ticket).trans
    (List.nodup_iff_count_le_one.mp ordered.added_nodup ticket)

theorem KeepsOrder.executed_subset (ordered : pool.KeepsOrder) :
    pool.executed ⊆ pool.added := by
  intro ticket member
  have positive := List.count_pos_iff.mpr member
  exact List.count_pos_iff.mp (Nat.lt_of_lt_of_le positive (ordered.count_executed_le ticket))

end Pool

/-- Whatever fails in a run, no job is completed twice or without having been
added, and each worker completes its jobs in the order it was given them. -/
theorem completed_at_most_once {pool : Pool} (run : Pool.AnyRun {} pool) :
    pool.executed.Nodup ∧ pool.executed ⊆ pool.added ∧
      ∀ number, (ticketsOf number pool.executed).Sublist (ticketsOf number pool.added) := by
  have ordered := Pool.keepsOrder_of_run run
  exact ⟨ordered.executed_nodup, ordered.executed_subset, ordered.completed⟩

/-- A full list, whose first worker has two jobs.  Its first attempt fails, and
it completes both in their order. -/
theorem completed_at_most_once_sample :
    ∃ pool : Pool, pool.executed.map Ticket.id = [2, 3] ∧ pool.executed.Nodup ∧
      (ticketsOf 2 pool.executed).Sublist (ticketsOf 2 pool.added) := by
  let labels : List PoolLabel :=
    List.replicate 4 (.request (text "u") (some (.remoteDelete sampleBase))) ++
      [false, false, true, false, false, false].map (PoolLabel.resume (text "u") 2)
  let pool := (Runs.replay Pool.step {} labels).get (by decide)
  have run : Pool.AnyRun {} pool :=
    Runs.run_of_replay_get _ (fun _label _member _pool => trivial)
  obtain ⟨once, _added, ordered⟩ := completed_at_most_once run
  exact ⟨pool, by decide, once, ordered 2⟩

end Cdnalizerd
