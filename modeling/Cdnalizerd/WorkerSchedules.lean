/-
How long the coroutines of the workers can go on.

Every resumed coroutine comes nearer to its end, whatever fails.  So a schedule
that is given no new jobs is finite, and where nothing fails and no request was
unsafe it ends with every job executed exactly once.
-/

import Cdnalizerd.WorkerCompletions
import Cdnalizerd.WorkerShutdown

namespace Cdnalizerd

open Library

/-! ### The effort of a worker -/

def SwitchPoint.effort : SwitchPoint → Nat
  | .spawned => 5
  | .connecting => 4
  | .running _job => 4
  | .reconnecting _job => 3
  | .idling => 2
  | .closing => 1

namespace Worker

/-- How often the coroutine can be resumed at most. -/
def effort (worker : Worker) : Nat :=
  3 * worker.queueSize + 2 * (maxRetries + 1 - worker.retries) + worker.point.effort

theorem effort_pos (worker : Worker) : 0 < worker.effort := by
  apply Nat.add_pos_right
  cases worker.point with
  | spawned => decide
  | connecting => decide
  | running job => exact Nat.succ_pos _
  | reconnecting job => exact Nat.succ_pos _
  | idling => decide
  | closing => decide

theorem effort_of_point {worker : Worker} {point : SwitchPoint} (here : worker.point = point) :
    worker.effort =
      3 * worker.queue.length + 2 * (maxRetries + 1 - worker.retries) + point.effort := by
  unfold effort queueSize
  rw [here]

theorem continueWork_effort_le (worker : Worker) (queue : List Ticket) :
    (worker.continueWork queue).effort ≤
      3 * queue.length + 2 * (maxRetries + 1 - worker.retries) + 2 := by
  induction queue with
  | nil => exact Nat.le_refl _
  | cons job queue ih =>
      unfold continueWork
      rw [List.length_cons]
      split
      · rw [effort_of_point rfl]
        dsimp only [SwitchPoint.effort]
        omega
      · omega

/-- The loop of `doWork` takes at least one job out of the queue. -/
theorem continueWork_effort_lt (worker : Worker) {queue : List Ticket} (queued : queue ≠ []) :
    (worker.continueWork queue).effort <
      3 * queue.length + 2 * (maxRetries + 1 - worker.retries) + 2 := by
  cases queue with
  | nil => exact absurd rfl queued
  | cons job queue =>
      have rest := worker.continueWork_effort_le queue
      unfold continueWork
      rw [List.length_cons]
      split
      · rw [effort_of_point rfl]
        dsimp only [SwitchPoint.effort]
        omega
      · omega

theorem Resumed.effort_lt {worker after : Worker} {done : Option Ticket}
    (resumed : Resumed worker after done) : after.effort < worker.effort := by
  have continued := worker.continueWork_effort_le worker.queue
  cases resumed with
  | begun point =>
      rw [effort_of_point point, effort_of_point rfl]
      exact Nat.lt_succ_self _
  | unneeded point empty =>
      rw [effort_of_point point, effort_of_point rfl]
      exact Nat.add_lt_add_left (show 1 < 4 by decide) _
  | connected point queued =>
      rw [effort_of_point point]
      exact Nat.lt_of_le_of_lt continued (Nat.add_lt_add_left (by decide) _)
  | completed job point =>
      rw [effort_of_point point]
      exact Nat.lt_of_le_of_lt continued
        (Nat.add_lt_add_left (show 2 < 4 by decide) _)
  | interrupted job point =>
      rw [effort_of_point point, effort_of_point rfl]
      exact Nat.lt_succ_self _
  | cutOff job point =>
      rw [effort_of_point point, effort_of_point rfl]
      exact Nat.add_lt_add_left (show 1 < 3 by decide) _
  | retried job point budget =>
      rw [effort_of_point point, effort_of_point rfl]
      dsimp only [SwitchPoint.effort]
      omega
  | givenUp job point spent =>
      have dropped := continueWork_effort_le { worker with retries := worker.retries + 1 }
        worker.queue
      dsimp only at dropped
      rw [effort_of_point point]
      dsimp only [SwitchPoint.effort]
      omega
  | expired point empty =>
      rw [effort_of_point point, effort_of_point rfl]
      exact Nat.lt_succ_self _
  | woken point queued =>
      rw [effort_of_point point]
      exact continueWork_effort_lt { worker with state := .working } queued

theorem continueWork_url (worker : Worker) (queue : List Ticket) :
    (worker.continueWork queue).url = worker.url := by
  induction queue with
  | nil => rfl
  | cons job queue ih =>
      unfold continueWork
      split
      · rfl
      · exact ih

theorem Resumed.url_eq {worker after : Worker} {done : Option Ticket}
    (resumed : Resumed worker after done) : after.url = worker.url := by
  cases resumed with
  | begun point => rfl
  | unneeded point empty => rfl
  | connected point queued => exact continueWork_url _ _
  | completed job point => exact continueWork_url _ _
  | interrupted job point => rfl
  | cutOff job point => rfl
  | retried job point budget => rfl
  | givenUp job point spent => exact continueWork_url _ _
  | expired point empty => rfl
  | woken point queued => exact continueWork_url _ _

end Worker

/-! ### The effort of a pool -/

namespace Pool

theorem mem_getWorker_of_mem {pool : Pool} {other : Bytes} {number : Nat}
    (listed : number ∈ pool.workers other) (url : Bytes) :
    number ∈ (pool.getWorker url).workers other := by
  unfold Pool.getWorker
  split
  · by_cases same : other = url
    · subst same
      dsimp only
      rw [Function.update_self]
      exact List.mem_cons_of_mem _ listed
    · dsimp only
      rw [Function.update_of_ne same]
      exact listed
  · exact listed

structure Housed (pool : Pool) : Prop where
  owns : pool.OwnTickets
  url_eq : ∀ url, ∀ number ∈ pool.workers url, (pool.worker number).url = url

/-- A worker that is gone takes no more effort. -/
def effortOf (pool : Pool) (number : Nat) : Nat :=
  if number ∈ pool.workers (pool.worker number).url then (pool.worker number).effort else 0

/-- The effort of the workers with smaller numbers. -/
def effortBelow (pool : Pool) : Nat → Nat
  | 0 => 0
  | number + 1 => pool.effortBelow number + pool.effortOf number

def effort (pool : Pool) : Nat :=
  pool.effortBelow pool.nextWorker

variable {pool next : Pool} {url : Bytes} {number : Nat}

theorem effortOf_eq {worker : Worker} (here : pool.worker number = worker) :
    pool.effortOf number = if number ∈ pool.workers worker.url then worker.effort else 0 := by
  subst here
  rfl

theorem effortOf_of_mem {worker : Worker} (here : pool.worker number = worker)
    (listed : number ∈ pool.workers worker.url) : pool.effortOf number = worker.effort :=
  (effortOf_eq here).trans (if_pos listed)

theorem effortOf_of_not_mem {worker : Worker} (here : pool.worker number = worker)
    (gone : number ∉ pool.workers worker.url) : pool.effortOf number = 0 :=
  (effortOf_eq here).trans (if_neg gone)

theorem effortOf_congr (sameWorker : next.worker number = pool.worker number)
    (sameList : number ∈ next.workers (pool.worker number).url ↔
      number ∈ pool.workers (pool.worker number).url) :
    next.effortOf number = pool.effortOf number := by
  rw [effortOf_eq sameWorker, effortOf_eq rfl]
  simp only [sameList]

theorem effortBelow_congr {bound : Nat}
    (same : ∀ index < bound, next.effortOf index = pool.effortOf index) :
    next.effortBelow bound = pool.effortBelow bound := by
  induction bound with
  | zero => rfl
  | succ bound ih =>
      unfold effortBelow
      rw [ih (fun index smaller => same index (Nat.lt_succ_of_lt smaller)),
        same bound (Nat.lt_succ_self bound)]

/-- Only the effort of one worker changes. -/
theorem effortBelow_add {bound : Nat} (inside : number < bound)
    (elsewhere : ∀ index, index ≠ number → next.effortOf index = pool.effortOf index) :
    next.effortBelow bound + pool.effortOf number =
      pool.effortBelow bound + next.effortOf number := by
  induction bound with
  | zero => exact absurd inside (Nat.not_lt_zero _)
  | succ bound ih =>
      unfold effortBelow
      rcases Nat.lt_succ_iff_lt_or_eq.mp inside with smaller | rfl
      · rw [elsewhere bound (Nat.ne_of_gt smaller)]
        have inner := ih smaller
        omega
      · rw [effortBelow_congr (fun index smaller => elsewhere index (Nat.ne_of_lt smaller))]
        omega

theorem housed_empty : ({} : Pool).Housed where
  owns := Pool.ownTickets_empty
  url_eq _url _number member := absurd member List.not_mem_nil

theorem Housed.effortOf_listed (housed : pool.Housed) (listed : number ∈ pool.workers url) :
    pool.effortOf number = (pool.worker number).effort := by
  apply effortOf_of_mem rfl
  rw [housed.url_eq url number listed]
  exact listed

theorem Housed.getWorker (housed : pool.Housed) (url : Bytes) : (pool.getWorker url).Housed where
  owns := @Pool.OwnTickets.step _ _ (.request url none) housed.owns rfl
  url_eq := by
    intro other index member
    rw [Pool.worker_getWorker]
    rcases Pool.mem_getWorker member with ⟨fresh, room, same⟩ | listed
    · rw [if_pos ⟨fresh, room⟩, same]
    · have old := housed.owns.listed_lt other index listed
      rw [if_neg (fun both => Nat.ne_of_lt old both.1)]
      exact housed.url_eq other index listed

theorem Housed.step (housed : pool.Housed) {label : PoolLabel}
    (stepped : pool.step label = some next) : next.Housed := by
  refine ⟨housed.owns.step stepped, ?_⟩
  cases label with
  | request url job =>
      have got := housed.getWorker url
      cases job with
      | none =>
          obtain rfl := Option.some.inj stepped
          exact got.url_eq
      | some job =>
          obtain rfl := Option.some.inj stepped
          intro other index member
          unfold addJob
          dsimp only
          by_cases same : index = pool.picked url
          · subst same
            rw [Function.update_self]
            exact got.url_eq other _ member
          · rw [Function.update_of_ne same]
            exact got.url_eq other index member
  | resume url number fails =>
      obtain ⟨listed, ⟨after, outcome, rfl⟩ | ⟨_gone, rfl⟩⟩ := Pool.step_resume_cases stepped
      · intro other index member
        dsimp only
        by_cases same : index = number
        · subst same
          rw [Function.update_self, (Worker.resumed_of_resume outcome).url_eq]
          exact housed.url_eq other index member
        · rw [Function.update_of_ne same]
          exact housed.url_eq other index member
      · exact fun other index member =>
          housed.url_eq other index (Pool.mem_of_mem_erased member)

/-- A launched worker takes an effort of 13 at most. -/
theorem effort_getWorker (pool : Pool) (url : Bytes) :
    (pool.getWorker url).effort + 13 * pool.nextWorker ≤
      pool.effort + 13 * (pool.getWorker url).nextWorker := by
  by_cases room : (pool.workers url).length < maxWorkersPerURL
  · have numbered : (pool.getWorker url).nextWorker = pool.nextWorker + 1 := by
      unfold Pool.getWorker
      rw [if_pos room]
    have fresh : (pool.getWorker url).worker pool.nextWorker =
        { url := url, state := .ready } := by
      rw [Pool.worker_getWorker, if_pos ⟨rfl, room⟩]
    have launched : (pool.getWorker url).effortOf pool.nextWorker ≤ 13 := by
      rw [effortOf_eq fresh]
      split
      · exact Nat.le_refl 13
      · exact Nat.zero_le 13
    have others : (pool.getWorker url).effortBelow pool.nextWorker = pool.effort := by
      apply effortBelow_congr
      intro index smaller
      apply effortOf_congr
      · rw [Pool.worker_getWorker, if_neg (fun both => Nat.ne_of_lt smaller both.1)]
      · constructor
        · intro member
          rcases Pool.mem_getWorker member with ⟨new, _room, _same⟩ | listed
          · exact absurd new (Nat.ne_of_lt smaller)
          · exact listed
        · exact fun listed => Pool.mem_getWorker_of_mem listed url
    unfold effort
    rw [numbered]
    change (pool.getWorker url).effortBelow pool.nextWorker +
      (pool.getWorker url).effortOf pool.nextWorker + _ ≤ _
    rw [others]
    unfold effort
    omega
  · unfold Pool.getWorker
    rw [if_neg room]

theorem Housed.effort_addJob (housed : pool.Housed) (listed : number ∈ pool.workers url)
    (job : Job) : (pool.addJob number job).effort = pool.effort + 3 := by
  have inside := housed.owns.listed_lt url number listed
  have home := housed.url_eq url number listed
  have elsewhere (index : Nat) (different : index ≠ number) :
      (pool.addJob number job).effortOf index = pool.effortOf index :=
    effortOf_congr (Function.update_of_ne different _ _) Iff.rfl
  have own : (pool.addJob number job).effortOf number = pool.effortOf number + 3 := by
    rw [housed.effortOf_listed listed, effortOf_of_mem (Function.update_self _ _ _)]
    · unfold Worker.effort Worker.queueSize
      dsimp only
      rw [List.length_append, List.length_singleton]
      omega
    · dsimp only [Pool.addJob]
      rw [home]
      exact listed
  have total := effortBelow_add inside elsewhere
  rw [own] at total
  change (pool.addJob number job).effortBelow pool.nextWorker = pool.effortBelow pool.nextWorker + 3
  omega

/-- The number of launched workers is left alone, and the effort of the worker
at hand falls. -/
theorem Housed.effort_resume (housed : pool.Housed) {fails : Bool}
    (stepped : pool.step (.resume url number fails) = some next) :
    next.effort < pool.effort := by
  obtain ⟨listed, outcome⟩ := Pool.step_resume_cases stepped
  have inside := housed.owns.listed_lt url number listed
  have home := housed.url_eq url number listed
  have lowered : next.nextWorker = pool.nextWorker ∧
      (∀ index, index ≠ number → next.effortOf index = pool.effortOf index) ∧
        next.effortOf number < pool.effortOf number := by
    rw [housed.effortOf_listed listed]
    rcases outcome with ⟨after, outcome, rfl⟩ | ⟨_gone, rfl⟩
    · have resumed := Worker.resumed_of_resume outcome
      refine ⟨rfl, ?_, ?_⟩
      · intro index different
        exact effortOf_congr (Function.update_of_ne different _ _) Iff.rfl
      · rw [effortOf_of_mem (Function.update_self _ _ _)]
        · exact resumed.effort_lt
        · rw [resumed.url_eq, home]
          exact listed
    · refine ⟨rfl, ?_, ?_⟩
      · intro index different
        refine effortOf_congr (by rfl) ?_
        by_cases same : (pool.worker index).url = url
        · dsimp only
          rw [same, Function.update_self, List.mem_erase_of_ne different]
        · dsimp only
          rw [Function.update_of_ne same]
      · rw [effortOf_of_not_mem (by rfl)]
        · exact (pool.worker number).effort_pos
        · dsimp only
          rw [home, Function.update_self]
          exact (housed.owns.listed_once url).not_mem_erase
  obtain ⟨numbered, elsewhere, smaller⟩ := lowered
  have total := effortBelow_add inside elsewhere
  unfold effort
  rw [numbered]
  omega

end Pool

/-! ### How often coroutines are resumed -/

def PoolLabel.resumes : PoolLabel → Bool
  | .request _url _job => false
  | .resume _url _number _fails => true

namespace Pool

variable {pool next : Pool}

/-- A launch makes room for 13 resumptions and a job for three more. -/
theorem Housed.effort_step (housed : pool.Housed) {label : PoolLabel}
    (stepped : pool.step label = some next) :
    (if label.resumes then 1 else 0) + next.effort + 13 * pool.nextWorker + 3 * pool.nextJob ≤
      pool.effort + 13 * next.nextWorker + 3 * next.nextJob := by
  cases label with
  | request url job =>
      have launched := pool.effort_getWorker url
      have kept : (pool.getWorker url).nextJob = pool.nextJob := by
        unfold Pool.getWorker
        split
        · rfl
        · rfl
      change 0 + next.effort + _ + _ ≤ _
      cases job with
      | none =>
          obtain rfl := Option.some.inj stepped
          rw [kept]
          omega
      | some job =>
          obtain rfl := Option.some.inj stepped
          rw [(housed.getWorker url).effort_addJob (pool.picked_mem_getWorker url) job]
          dsimp only [Pool.addJob]
          rw [kept]
          omega
  | resume url number fails =>
      have smaller := housed.effort_resume stepped
      have kept : next.nextWorker = pool.nextWorker ∧ next.nextJob = pool.nextJob := by
        obtain ⟨_listed, ⟨after, _outcome, rfl⟩ | ⟨_gone, rfl⟩⟩ := Pool.step_resume_cases stepped
        · exact ⟨rfl, rfl⟩
        · exact ⟨rfl, rfl⟩
      change 1 + next.effort + _ + _ ≤ _
      rw [kept.1, kept.2]
      omega

theorem Housed.effort_replay (housed : pool.Housed) {labels : List PoolLabel}
    (replayed : Runs.replay Pool.step pool labels = some next) :
    labels.countP PoolLabel.resumes + next.effort + 13 * pool.nextWorker + 3 * pool.nextJob ≤
      pool.effort + 13 * next.nextWorker + 3 * next.nextJob := by
  induction labels generalizing pool with
  | nil =>
      obtain rfl := Option.some.inj replayed
      rw [List.countP_nil, Nat.zero_add]
  | cons label rest ih =>
      obtain ⟨middle, stepped, replayedRest⟩ := Option.bind_eq_some_iff.mp replayed
      have here := housed.effort_step stepped
      have later := ih (housed.step stepped) replayedRest
      rw [List.countP_cons]
      omega

end Pool

/-- In every run, whatever fails in it, the coroutines are resumed at most 13
times for each worker launched and three times more for each job. -/
theorem resumes_bounded {labels : List PoolLabel} {pool : Pool}
    (replayed : Runs.replay Pool.step {} labels = some pool) :
    labels.countP PoolLabel.resumes + pool.effort ≤ 13 * pool.nextWorker + 3 * pool.nextJob := by
  have bound := Pool.housed_empty.effort_replay replayed
  change _ + 13 * 0 + 3 * 0 ≤ 0 + _ + _ at bound
  omega

/-- An attempt fails, the connection is made again, and then the job is done. -/
theorem resumes_bounded_sample :
    ∃ pool : Pool, pool.executed.length = 1 ∧
      7 + pool.effort ≤ 13 * pool.nextWorker + 3 * pool.nextJob := by
  let labels : List PoolLabel :=
    .request (text "u") (some (.remoteDelete sampleBase)) ::
      [false, false, true, false, false, false, false].map (PoolLabel.resume (text "u") 0)
  let pool := (Runs.replay Pool.step {} labels).get (by decide)
  have replayed : Runs.replay Pool.step {} labels = some pool := (Option.some_get _).symm
  have resumed : labels.countP PoolLabel.resumes = 7 := by decide
  have bound := resumes_bounded replayed
  rw [resumed] at bound
  exact ⟨pool, by decide, bound⟩

/-! ### Where a schedule ends -/

namespace Pool

variable {pool next : Pool}

def Exhausted (pool : Pool) : Prop :=
  ∀ url number fails, pool.step (.resume url number fails) = none

theorem step_of_listed {url : Bytes} {number : Nat} (listed : number ∈ pool.workers url)
    (fails : Bool) : ∃ next, pool.step (.resume url number fails) = some next := by
  unfold step
  dsimp only
  rw [if_pos listed]
  split
  · exact ⟨_, rfl⟩
  · exact ⟨_, rfl⟩

theorem exhausted_iff : pool.Exhausted ↔ ∀ url, pool.workers url = [] := by
  constructor
  · intro exhausted url
    apply List.eq_nil_iff_forall_not_mem.mpr
    intro number listed
    obtain ⟨next, stepped⟩ := Pool.step_of_listed listed false
    rw [exhausted url number false] at stepped
    cases stepped
  · intro empty url number fails
    unfold step
    dsimp only
    rw [empty url, if_neg List.not_mem_nil]

/-- Nothing has failed, and a worker that is gone has completed every job it was
given. -/
structure NothingLost (pool : Pool) : Prop where
  placed : pool.WellPlaced
  inOrder : pool.InOrder
  completed : ∀ number, (∀ url, number ∉ pool.workers url) →
    ticketsOf number pool.executed = ticketsOf number pool.added

theorem nothingLost_empty : ({} : Pool).NothingLost where
  placed _url _number member := absurd member List.not_mem_nil
  inOrder := Pool.inOrder_empty
  completed _number _gone := rfl

theorem calm_of_safe {label : PoolLabel} (safe : pool.safe label) : label.calm := by
  cases label with
  | request url job => trivial
  | resume url number fails => exact safe

theorem NothingLost.step (kept : pool.NothingLost) {label : PoolLabel} (safe : pool.safe label)
    (stepped : pool.step label = some next) : next.NothingLost := by
  refine ⟨kept.placed.step safe stepped, kept.inOrder.step (calm_of_safe safe) stepped, ?_⟩
  intro number gone
  cases label with
  | request url job =>
      -- Whoever is gone afterwards was gone before, and was given nothing.
      have before (still : ∀ other, number ∉ (pool.getWorker url).workers other) :
          ticketsOf number (pool.getWorker url).executed =
            ticketsOf number (pool.getWorker url).added := by
        rw [Pool.getWorker_executed, Pool.getWorker_added]
        exact kept.completed number
          (fun other listed => still other (Pool.mem_getWorker_of_mem listed url))
      cases job with
      | none =>
          obtain rfl := Option.some.inj stepped
          exact before gone
      | some job =>
          obtain rfl := Option.some.inj stepped
          have different : pool.picked url ≠ number := by
            intro same
            exact gone url (same ▸ pool.picked_mem_getWorker url)
          have foreign : ticketsOf number
              [⟨(pool.getWorker url).nextJob, job, pool.picked url⟩] = [] :=
            ticketsOf_other (by simp) different
          dsimp only [Pool.addJob]
          rw [ticketsOf_append, foreign, List.append_nil]
          exact before gone
  | resume url index fails =>
      replace safe : fails = false := safe
      subst safe
      obtain ⟨listed, ⟨after, done, resumed, rfl⟩ | ⟨closing, rfl⟩⟩ :=
        Pool.step_calm_cases kept.inOrder.untroubled stepped
      · have taken := resumed.pending_eq (kept.inOrder.untroubled url index listed)
        have different : index ≠ number := by
          intro same
          exact gone url (same ▸ listed)
        have own : ∀ ticket ∈ done.toList, ticket.worker = index := by
          intro ticket member
          have pending : ticket ∈ (pool.worker index).pending := by
            rw [← taken]
            exact List.mem_append_left _ member
          have among : ticket ∈ ticketsOf index pool.added := by
            rw [← kept.inOrder.flow url index listed]
            exact List.mem_append_right _ pending
          exact (mem_ticketsOf.mp among).2
        dsimp only
        rw [ticketsOf_append, ticketsOf_other own different, List.append_nil]
        exact kept.completed number gone
      · dsimp only
        by_cases erased : ∀ other, number ∉ pool.workers other
        · exact kept.completed number erased
        · -- The erased worker has an empty queue, so nothing of it is pending.
          have same : number = index := by
            by_contra different
            apply erased
            intro other member
            apply gone other
            dsimp only
            by_cases home : other = url
            · subst home
              rw [Function.update_self]
              exact (List.mem_erase_of_ne different).mpr member
            · rw [Function.update_of_ne home]
              exact member
          subst same
          have flow := kept.inOrder.flow url number listed
          unfold Worker.pending at flow
          rw [closing, (kept.placed url number listed).closing_empty closing,
            List.append_nil] at flow
          exact flow

theorem nothingLost_of_run (run : Runs.Run Pool.step Pool.safe {} pool) : pool.NothingLost :=
  Runs.invariant_of_run run Pool.nothingLost_empty
    (fun _before _label _after kept safe stepped => kept.step safe stepped)

theorem NothingLost.perm_of_exhausted (kept : pool.NothingLost) (exhausted : pool.Exhausted) :
    pool.executed.Perm pool.added := by
  apply List.perm_iff_count.mpr
  intro ticket
  rw [← count_ticketsOf pool.executed, ← count_ticketsOf pool.added, kept.completed]
  intro url
  rw [Pool.exhausted_iff.mp exhausted url]
  exact List.not_mem_nil

/-- A schedule that nothing is added to can be carried on to its end. -/
theorem Housed.exists_exhausted (housed : pool.Housed) :
    ∃ schedule final, (∀ label ∈ schedule, ∃ url number, label = .resume url number false) ∧
      Runs.replay Pool.step pool schedule = some final ∧ final.Exhausted := by
  induction bound : pool.effort using Nat.strong_induction_on generalizing pool with
  | _ effort ih =>
      by_cases exhausted : ∀ url, pool.workers url = []
      · exact ⟨[], pool, fun _label member => absurd member List.not_mem_nil, rfl,
          Pool.exhausted_iff.mpr exhausted⟩
      · obtain ⟨url, nonempty⟩ := not_forall.mp exhausted
        obtain ⟨number, listed⟩ := List.exists_mem_of_ne_nil _ nonempty
        obtain ⟨next, stepped⟩ := Pool.step_of_listed listed false
        have smaller := housed.effort_resume stepped
        obtain ⟨schedule, final, resumes, replayed, finished⟩ :=
          ih next.effort (bound ▸ smaller) (housed.step stepped) rfl
        refine ⟨.resume url number false :: schedule, final, ?_, ?_, finished⟩
        · intro label member
          rcases List.mem_cons.mp member with rfl | inRest
          · exact ⟨url, number, rfl⟩
          · exact resumes label inRest
        · exact Option.bind_eq_some_iff.mpr ⟨next, stepped, replayed⟩

/-- Every step of a schedule takes some effort, and loses nothing. -/
theorem NothingLost.schedule (kept : pool.NothingLost) (housed : pool.Housed)
    {schedule : List PoolLabel}
    (resumes : ∀ label ∈ schedule, ∃ url number, label = .resume url number false)
    (replayed : Runs.replay Pool.step pool schedule = some next) :
    schedule.length + next.effort ≤ pool.effort ∧ next.added = pool.added ∧
      next.NothingLost := by
  induction schedule generalizing pool with
  | nil =>
      obtain rfl := Option.some.inj replayed
      exact ⟨(Nat.zero_add _).le, rfl, kept⟩
  | cons label rest ih =>
      obtain ⟨url, number, rfl⟩ := resumes label List.mem_cons_self
      obtain ⟨middle, stepped, replayedRest⟩ := Option.bind_eq_some_iff.mp replayed
      have smaller := housed.effort_resume stepped
      have sameAdded : middle.added = pool.added := by
        obtain ⟨_listed, ⟨after, _outcome, rfl⟩ | ⟨_gone, rfl⟩⟩ := Pool.step_resume_cases stepped
        · rfl
        · rfl
      obtain ⟨shorter, added, later⟩ := ih
        (kept.step (by rfl : pool.safe (.resume url number false)) stepped)
        (housed.step stepped)
        (fun other member => resumes other (List.mem_cons_of_mem _ member)) replayedRest
      refine ⟨?_, added.trans sameAdded, later⟩
      rw [List.length_cons]
      omega

theorem housed_of_run (run : AnyRun {} pool) : pool.Housed :=
  Runs.invariant_of_run run Pool.housed_empty
    (fun _before _label _after housed _allowed stepped => housed.step stepped)

end Pool

/-- From every state of a run of safe requests without failures, a schedule that
adds nothing has an end, which each such schedule comes to within the effort
left, and there every job was executed exactly once. -/
theorem schedules_execute_each_once {pool : Pool} (run : Runs.Run Pool.step Pool.safe {} pool) :
    (∃ schedule final, (∀ label ∈ schedule, ∃ url number, label = .resume url number false) ∧
      Runs.replay Pool.step pool schedule = some final ∧ final.Exhausted) ∧
    ∀ schedule final, (∀ label ∈ schedule, ∃ url number, label = .resume url number false) →
      Runs.replay Pool.step pool schedule = some final →
        schedule.length + final.effort ≤ pool.effort ∧ final.added = pool.added ∧
          (final.Exhausted → final.executed.Perm pool.added ∧ final.executed.Nodup) := by
  have anyRun : Pool.AnyRun {} pool := Relation.ReflTransGen.mono
    (fun _before _after next => next.imp fun _label allowed => ⟨trivial, allowed.2⟩) _ _ run
  have housed := Pool.housed_of_run anyRun
  refine ⟨housed.exists_exhausted, ?_⟩
  intro schedule final resumes replayed
  obtain ⟨shorter, added, later⟩ :=
    (Pool.nothingLost_of_run run).schedule housed resumes replayed
  refine ⟨shorter, added, ?_⟩
  intro exhausted
  have each := later.perm_of_exhausted exhausted
  rw [added] at each
  exact ⟨each, each.nodup_iff.mpr (Pool.keepsOrder_of_run anyRun).added_nodup⟩

/-- Two jobs for the two workers of a URL. -/
theorem schedules_execute_each_once_sample :
    ∃ final : Pool, final.executed.Perm
      [⟨0, .remoteDelete sampleBase, 0⟩, ⟨1, .upload [] sampleBase, 1⟩] := by
  let first := ({} : Pool).getWorker (text "u") |>.addJob 0 (.remoteDelete sampleBase)
  let asked := first.getWorker (text "u") |>.addJob 1 (.upload [] sampleBase)
  have run : Runs.Run Pool.step Pool.safe {} asked :=
    (Relation.ReflTransGen.single
      ⟨.request (text "u") (some (.remoteDelete sampleBase)), Or.inl (by decide), rfl⟩).tail
      ⟨.request (text "u") (some (.upload [] sampleBase)), Or.inl (by decide), rfl⟩
  obtain ⟨⟨schedule, final, resumes, replayed, exhausted⟩, each⟩ :=
    schedules_execute_each_once run
  exact ⟨final, ((each schedule final resumes replayed).2.2 exhausted).1⟩

end Cdnalizerd
