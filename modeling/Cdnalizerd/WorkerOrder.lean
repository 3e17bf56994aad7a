/-
The order in which jobs are executed.

A worker executes its jobs first in, first out.  Jobs for one destination go
to the workers of one URL, but `getWorker` may give them to different ones.
-/

import Cdnalizerd.WorkerRuns

namespace Cdnalizerd

open Library

theorem idxOf_lt_of_prefix {front list : List Ticket} {first second : Ticket}
    (isPrefix : front <+: list) (inside : first ∈ front) (outside : second ∉ front) :
    list.idxOf first < list.idxOf second := by
  obtain ⟨rest, rfl⟩ := isPrefix
  rw [List.idxOf_append_of_mem inside, List.idxOf_append_of_notMem outside]
  have bound := List.idxOf_lt_length_of_mem inside
  omega

/-! ### What is added and executed stays so -/

theorem Pool.getWorker_added (pool : Pool) (url : Bytes) :
    (pool.getWorker url).added = pool.added := by
  unfold Pool.getWorker
  split
  · rfl
  · rfl

theorem Pool.getWorker_executed (pool : Pool) (url : Bytes) :
    (pool.getWorker url).executed = pool.executed := by
  unfold Pool.getWorker
  split
  · rfl
  · rfl

/-- A worker that is resumed adds no job, and at most completes one. -/
theorem Pool.recorded_of_resume {pool next : Pool} {url : Bytes} {number : Nat} {fails : Bool}
    (stepped : pool.step (.resume url number fails) = some next) :
    next.added = pool.added ∧
      next.executed = pool.executed ++ ((pool.worker number).resume fails).2.toList := by
  obtain ⟨_listed, ⟨after, _outcome, rfl⟩ | ⟨_gone, rfl⟩⟩ := Pool.step_resume_cases stepped
  · exact ⟨rfl, rfl⟩
  · exact ⟨rfl, rfl⟩

theorem Pool.records_of_step {pool next : Pool} {label : PoolLabel}
    (stepped : pool.step label = some next) :
    pool.added <+: next.added ∧ pool.executed <+: next.executed := by
  cases label with
  | request url job =>
      cases job with
      | none =>
          obtain rfl := Option.some.inj stepped
          rw [Pool.getWorker_added, Pool.getWorker_executed]
          exact ⟨List.prefix_refl _, List.prefix_refl _⟩
      | some job =>
          obtain rfl := Option.some.inj stepped
          dsimp only [Pool.addJob]
          rw [Pool.getWorker_added, Pool.getWorker_executed]
          exact ⟨List.prefix_append _ _, List.prefix_refl _⟩
  | resume url number fails =>
      obtain ⟨added, executed⟩ := Pool.recorded_of_resume stepped
      rw [added, executed]
      exact ⟨List.prefix_refl _, List.prefix_append _ _⟩

theorem Pool.records_of_calmRun {earlier pool : Pool} (run : CalmRun earlier pool) :
    earlier.added <+: pool.added ∧ earlier.executed <+: pool.executed := by
  induction run with
  | refl => exact ⟨List.prefix_refl _, List.prefix_refl _⟩
  | tail _run next ih =>
      obtain ⟨label, _calm, stepped⟩ := next
      have grows := Pool.records_of_step stepped
      exact ⟨ih.1.trans grows.1, ih.2.trans grows.2⟩

theorem Pool.InOrder.added_of_executed {pool : Pool} (inOrder : pool.InOrder) {ticket : Ticket}
    (member : ticket ∈ pool.executed) : ticket ∈ pool.added := by
  have own : ticket ∈ ticketsOf ticket.worker pool.executed :=
    mem_ticketsOf.mpr ⟨member, rfl⟩
  exact (mem_ticketsOf.mp ((inOrder.completed ticket.worker).subset own)).1

theorem count_ticketsOf (tickets : List Ticket) (ticket : Ticket) :
    (ticketsOf ticket.worker tickets).count ticket = tickets.count ticket :=
  List.count_filter (decide_eq_true rfl)

theorem Pool.InOrder.executed_nodup {pool : Pool} (inOrder : pool.InOrder) :
    pool.executed.Nodup := by
  have added : pool.added.Nodup :=
    inOrder.ascending.imp (fun later same => by
      rw [same] at later
      exact Nat.lt_irrefl _ later)
  rw [List.nodup_iff_count_le_one]
  intro ticket
  calc pool.executed.count ticket
      = (ticketsOf ticket.worker pool.executed).count ticket :=
        (count_ticketsOf pool.executed ticket).symm
    _ ≤ (ticketsOf ticket.worker pool.added).count ticket :=
        (inOrder.completed ticket.worker).sublist.count_le ticket
    _ ≤ 1 := List.nodup_iff_count_le_one.mp (added.filter _) ticket

/-! ### Jobs of one worker -/

/-- What a worker executed is ordered as what it was given. -/
theorem Pool.InOrder.same_worker {earlier pool : Pool} (inOrder : pool.InOrder)
    (grown : earlier.added <+: pool.added) {first second : Ticket}
    (read : first ∈ earlier.added) (unread : second ∉ earlier.added)
    (same : first.worker = second.worker) (done : second ∈ pool.executed) :
    pool.executed.idxOf first < pool.executed.idxOf second := by
  obtain ⟨front, back, executed, notBefore⟩ := List.eq_append_cons_of_mem done
  have ownPrefix : ticketsOf second.worker earlier.added <+:
      ticketsOf second.worker pool.added := grown.filter _
  have ownEarlier : first ∈ ticketsOf second.worker earlier.added :=
    mem_ticketsOf.mpr ⟨read, same⟩
  have upTo : ticketsOf second.worker front ++ [second] <+:
      ticketsOf second.worker pool.added := by
    apply List.IsPrefix.trans ?_ (inOrder.completed second.worker)
    rw [executed, ticketsOf_append]
    apply (List.prefix_append_right_inj _).mpr
    refine ⟨ticketsOf second.worker back, ?_⟩
    have kept : ticketsOf second.worker (second :: back) =
        second :: ticketsOf second.worker back := List.filter_cons_of_pos (decide_eq_true rfl)
    rw [kept, List.singleton_append]
  have inFront : first ∈ front := by
    rcases List.prefix_or_prefix_of_prefix ownPrefix upTo with short | long
    · rcases List.mem_append.mp (short.subset ownEarlier) with before | itself
      · exact (mem_ticketsOf.mp before).1
      · obtain rfl := List.mem_singleton.mp itself
        exact absurd read unread
    · have secondEarlier : second ∈ ticketsOf second.worker earlier.added :=
        long.subset (List.mem_append_right _ (List.mem_singleton_self second))
      exact absurd (mem_ticketsOf.mp secondEarlier).1 unread
  apply idxOf_lt_of_prefix ?_ inFront notBefore
  rw [executed]
  exact List.prefix_append _ _

/-- Of two jobs, `first` read before `second`, `first` is executed before
`second` if one worker has both, or if it was executed before `second` was read. -/
theorem executed_in_order_read {earlier pool : Pool} (before : CalmRun {} earlier)
    (after : CalmRun earlier pool) {first second : Ticket} (read : first ∈ earlier.added)
    (unread : second ∉ earlier.added) (done : second ∈ pool.executed)
    (ordered : first.worker = second.worker ∨ first ∈ earlier.executed) :
    pool.executed.idxOf first < pool.executed.idxOf second := by
  have grown := Pool.records_of_calmRun after
  rcases ordered with same | executed
  · exact (Pool.inOrder_of_calmRun (before.trans after)).same_worker grown.1 read unread same done
  · apply idxOf_lt_of_prefix grown.2 executed
    intro early
    exact unread ((Pool.inOrder_of_calmRun before).added_of_executed early)

/-! ### Replays of labels that do not fail -/

/-- Three requests give each of the three workers a job, and a fourth gives one
of them a second job. -/
def fourRequests : List PoolLabel :=
  List.replicate 4 (.request (text "u") (some (.remoteDelete sampleBase)))

def resumed (number times : Nat) : List PoolLabel :=
  List.replicate times (.resume (text "u") number false)

theorem calm_of_mem_resumed {number times : Nat} {label : PoolLabel}
    (member : label ∈ resumed number times) : label.calm := by
  rw [List.eq_of_mem_replicate member]
  rfl

theorem executed_in_order_read_sample :
    ∃ earlier pool : Pool, ∃ first second : Ticket,
      pool.executed = [first, second] ∧ first ∈ earlier.added ∧ second ∉ earlier.added ∧
        pool.executed.idxOf first < pool.executed.idxOf second := by
  let earlier := ((Runs.replay Pool.step {} (fourRequests.take 3)).get (by decide))
  let after := [.request (text "u") (some (.remoteDelete sampleBase))] ++ resumed 2 4
  let pool := (Runs.replay Pool.step earlier after).get (by decide)
  let first : Ticket := ⟨2, .remoteDelete sampleBase, 2⟩
  let second : Ticket := ⟨3, .remoteDelete sampleBase, 2⟩
  have beforeRun : CalmRun {} earlier := by
    apply Runs.run_of_replay_get
    intro label member _pool
    rw [List.eq_of_mem_replicate (List.mem_of_mem_take member)]
    exact trivial
  have afterRun : CalmRun earlier pool := by
    apply Runs.run_of_replay_get
    intro label member _pool
    rcases List.mem_append.mp member with asked | resume
    · rw [List.mem_singleton.mp asked]
      exact trivial
    · exact calm_of_mem_resumed resume
  have read : first ∈ earlier.added := by decide
  have unread : second ∉ earlier.added := by decide
  have executed : pool.executed = [first, second] := by decide
  have done : second ∈ pool.executed := by
    rw [executed]
    exact List.mem_cons_of_mem _ (List.mem_singleton_self _)
  exact ⟨earlier, pool, first, second, executed, read, unread,
    executed_in_order_read beforeRun afterRun read unread done (Or.inl rfl)⟩

/-! ### Jobs of two workers -/

/-- The second worker is ready before the first one. -/
theorem delete_executed_before_upload :
    ¬ ∀ earlier pool : Pool, CalmRun {} earlier → CalmRun earlier pool →
      ∀ first second : Ticket, first ∈ earlier.added → second ∉ earlier.added →
        first.job.destination = second.job.destination → second ∈ pool.executed →
          pool.executed.idxOf first < pool.executed.idxOf second := by
  intro ordered
  let upload := Job.conditionalUpload (text "/d/a") sampleBase
  let delete := Job.remoteDelete sampleBase
  let earlier := ((Runs.replay Pool.step {} [.request (text "u") (some upload)]).get
    (by decide))
  let after := [.request (text "u") (some delete)] ++ resumed 1 3 ++ resumed 0 3
  let pool := (Runs.replay Pool.step earlier after).get (by decide)
  have beforeRun : CalmRun {} earlier := by
    apply Runs.run_of_replay_get
    intro label member _pool
    rw [List.mem_singleton.mp member]
    exact trivial
  have afterRun : CalmRun earlier pool := by
    apply Runs.run_of_replay_get
    intro label member _pool
    rcases List.mem_append.mp member with front | resume
    · rcases List.mem_append.mp front with asked | resume
      · rw [List.mem_singleton.mp asked]
        exact trivial
      · exact calm_of_mem_resumed resume
    · exact calm_of_mem_resumed resume
  have executed : pool.executed = [⟨1, delete, 1⟩, ⟨0, upload, 0⟩] := by decide
  have inOrder := ordered earlier pool beforeRun afterRun ⟨0, upload, 0⟩ ⟨1, delete, 1⟩
    (by decide) (by decide) rfl (by rw [executed]; exact List.mem_cons_self)
  rw [executed] at inOrder
  revert inOrder
  decide

end Cdnalizerd
