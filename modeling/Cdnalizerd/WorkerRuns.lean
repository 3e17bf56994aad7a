/-
Runs of the worker pool.

Jobs of one worker are completed in the order they were added.  A worker in
the shutdown of its connection is still listed, with an empty queue, and the
search for the least busy worker may find it.
-/

import Cdnalizerd.Workers

namespace Cdnalizerd

open Library

/-! ### Picking a worker -/

theorem leastBusy_mem (worker : Nat → Worker) (best : Nat) (rest : List Nat) :
    leastBusy worker best rest = best ∨ leastBusy worker best rest ∈ rest := by
  induction rest generalizing best with
  | nil => exact Or.inl rfl
  | cons result rest ih =>
      unfold leastBusy
      split
      · exact Or.inr List.mem_cons_self
      split
      · right
        rcases ih result with same | member
        · rw [same]
          exact List.mem_cons_self
        · exact List.mem_cons_of_mem result member
      · exact (ih best).imp_right (List.mem_cons_of_mem result)

theorem Pool.picked_mem {pool : Pool} {url : Bytes}
    (full : ¬ (pool.workers url).length < maxWorkersPerURL) :
    pool.picked url ∈ pool.workers url := by
  have nonempty : pool.workers url ≠ [] := by
    intro empty
    rw [empty] at full
    exact full (by decide)
  obtain ⟨first, rest, listed⟩ := List.exists_cons_of_ne_nil nonempty
  unfold picked
  rw [if_neg full, listed, List.headD_cons]
  rcases leastBusy_mem pool.worker first (first :: rest) with same | member
  · rw [same]
    exact List.mem_cons_self
  · exact member

theorem Pool.mem_getWorker {pool : Pool} {url other : Bytes} {number : Nat}
    (member : number ∈ (pool.getWorker url).workers other) :
    (number = pool.nextWorker ∧ (pool.workers url).length < maxWorkersPerURL ∧ other = url) ∨
      number ∈ pool.workers other := by
  unfold getWorker at member
  split at member
  · rename_i room
    by_cases same : other = url
    · subst same
      dsimp only at member
      rw [Function.update_self] at member
      exact (List.mem_cons.mp member).imp_left (fun fresh => ⟨fresh, room, rfl⟩)
    · dsimp only at member
      rw [Function.update_of_ne same] at member
      exact Or.inr member
  · exact Or.inr member

theorem Pool.picked_mem_getWorker (pool : Pool) (url : Bytes) :
    pool.picked url ∈ (pool.getWorker url).workers url := by
  by_cases room : (pool.workers url).length < maxWorkersPerURL
  · unfold picked getWorker
    rw [if_pos room, if_pos room]
    dsimp only
    rw [Function.update_self]
    exact List.mem_cons_self
  · have member := Pool.picked_mem room
    unfold getWorker
    rw [if_neg room]
    exact member

theorem Pool.worker_getWorker (pool : Pool) (url : Bytes) (number : Nat) :
    (pool.getWorker url).worker number =
      if number = pool.nextWorker ∧ (pool.workers url).length < maxWorkersPerURL then
        { url := url, state := .ready }
      else pool.worker number := by
  unfold getWorker
  by_cases room : (pool.workers url).length < maxWorkersPerURL
  · rw [if_pos room]
    by_cases fresh : number = pool.nextWorker
    · subst fresh
      rw [if_pos ⟨rfl, room⟩]
      exact Function.update_self _ _ _
    · rw [if_neg (fun both => fresh both.1)]
      exact Function.update_of_ne fresh _ _
  · rw [if_neg room, if_neg (fun both => room both.2)]

/-! ### What a step does -/

theorem Pool.mem_of_mem_erased {pool : Pool} {url other : Bytes} {number index : Nat}
    (member : index ∈
      Function.update pool.workers url ((pool.workers url).erase number) other) :
    index ∈ pool.workers other := by
  by_cases same : other = url
  · subst same
    rw [Function.update_self] at member
    exact List.mem_of_mem_erase member
  · rw [Function.update_of_ne same] at member
    exact member

theorem Pool.step_resume_cases {pool next : Pool} {url : Bytes} {number : Nat} {fails : Bool}
    (stepped : pool.step (.resume url number fails) = some next) :
    number ∈ pool.workers url ∧
      ((∃ resumed, ((pool.worker number).resume fails).1 = some resumed ∧
          next = { pool with
            worker := Function.update pool.worker number resumed
            executed := pool.executed ++ ((pool.worker number).resume fails).2.toList }) ∨
        ((pool.worker number).resume fails).1 = none ∧
          next = { pool with
            workers := Function.update pool.workers url ((pool.workers url).erase number)
            executed := pool.executed ++ ((pool.worker number).resume fails).2.toList }) := by
  unfold step at stepped
  dsimp only at stepped
  split at stepped
  · rename_i listed
    refine ⟨listed, ?_⟩
    split at stepped
    · rename_i resumed outcome
      exact Or.inl ⟨resumed, outcome, (Option.some.inj stepped).symm⟩
    · rename_i outcome
      exact Or.inr ⟨outcome, (Option.some.inj stepped).symm⟩
  · cases stepped

/-- A property of workers and their numbers holds of every listed worker after a
step if a new worker has it, the worker picked keeps it with one more job of its
own, and a resumed worker keeps it. -/
theorem Pool.numbered_of_step {good : Nat → Worker → Prop} {pool next : Pool}
    {label : PoolLabel} (stepped : pool.step label = some next)
    (before : ∀ url, ∀ number ∈ pool.workers url, good number (pool.worker number))
    (launched : ∀ url, good pool.nextWorker { url := url, state := .ready })
    (given : ∀ url job, label = .request url (some job) →
      ∀ worker ticket, worker = (pool.getWorker url).worker (pool.picked url) →
        ticket.worker = pool.picked url → good (pool.picked url) worker →
        good (pool.picked url) { worker with queue := worker.queue ++ [ticket] })
    (resumed : ∀ url number fails, label = .resume url number fails →
      good number (pool.worker number) →
        ∀ after, ((pool.worker number).resume fails).1 = some after → good number after) :
    ∀ url, ∀ number ∈ next.workers url, good number (next.worker number) := by
  have got (url other : Bytes) (number : Nat)
      (member : number ∈ (pool.getWorker url).workers other) :
      good number ((pool.getWorker url).worker number) := by
    rw [Pool.worker_getWorker]
    split
    · rename_i fresh
      rw [fresh.1]
      exact launched url
    · rename_i old
      rcases Pool.mem_getWorker member with ⟨fresh, room, _same⟩ | listed
      · exact absurd ⟨fresh, room⟩ old
      · exact before other number listed
  intro url number member
  cases label with
  | request target job =>
      cases job with
      | none =>
          obtain rfl := Option.some.inj stepped
          exact got target url number member
      | some job =>
          obtain rfl := Option.some.inj stepped
          unfold addJob
          dsimp only
          by_cases same : number = pool.picked target
          · subst same
            rw [Function.update_self]
            exact given target job rfl _ _ rfl rfl
              (got target target _ (pool.picked_mem_getWorker target))
          · rw [Function.update_of_ne same]
            exact got target url number member
  | resume target index fails =>
      obtain ⟨listed, ⟨after, outcome, rfl⟩ | ⟨_outcome, rfl⟩⟩ :=
        Pool.step_resume_cases stepped
      · dsimp only
        by_cases same : number = index
        · subst same
          rw [Function.update_self]
          exact resumed target number fails rfl (before target number listed) after outcome
        · rw [Function.update_of_ne same]
          exact before url number member
      · exact before url number (Pool.mem_of_mem_erased member)

theorem Pool.listed_of_step {good : Worker → Prop} {pool next : Pool} {label : PoolLabel}
    (stepped : pool.step label = some next)
    (before : ∀ url, ∀ number ∈ pool.workers url, good (pool.worker number))
    (launched : ∀ url, good { url := url, state := .ready })
    (given : ∀ url job, label = .request url (some job) →
      ∀ worker ticket, worker = (pool.getWorker url).worker (pool.picked url) → good worker →
        good { worker with queue := worker.queue ++ [ticket] })
    (resumed : ∀ url number fails, label = .resume url number fails →
      good (pool.worker number) → ∀ after, ((pool.worker number).resume fails).1 = some after →
        good after) :
    ∀ url, ∀ number ∈ next.workers url, good (next.worker number) :=
  Pool.numbered_of_step stepped before launched
    (fun url job labelled worker ticket same _own => given url job labelled worker ticket same)
    resumed

/-! ### Resuming a worker while nothing fails -/

namespace Worker

def pending (worker : Worker) : List Ticket :=
  match worker.point with
  | .running job => job :: worker.queue
  | .reconnecting job => job :: worker.queue
  | _ => worker.queue

theorem continueWork_pending {worker : Worker} (unspent : worker.retries = 0)
    (queue : List Ticket) : (worker.continueWork queue).pending = queue := by
  cases queue with
  | nil => rfl
  | cons job queue =>
      unfold continueWork
      rw [if_pos (by omega)]
      rfl

theorem continueWork_retries (worker : Worker) (queue : List Ticket) :
    (worker.continueWork queue).retries = worker.retries := by
  induction queue with
  | nil => rfl
  | cons job queue ih =>
      unfold continueWork
      split
      · rfl
      · exact ih

/-- No operation has failed so far, and none is being repeated. -/
def Untroubled (worker : Worker) : Prop :=
  worker.retries = 0 ∧ ∀ job, worker.point ≠ .reconnecting job

/-- How a worker leaves the switch point it waits at while nothing fails. -/
inductive CalmlyResumed (worker : Worker) : Worker → Option Ticket → Prop where
  | begun (point : worker.point = .spawned) :
      CalmlyResumed worker { worker with state := .working, point := .connecting } none
  | unneeded (point : worker.point = .connecting) (empty : worker.queue = []) :
      CalmlyResumed worker { worker with point := .closing } none
  | connected (point : worker.point = .connecting) (queued : worker.queue ≠ []) :
      CalmlyResumed worker (worker.continueWork worker.queue) none
  | completed (job : Ticket) (point : worker.point = .running job) :
      CalmlyResumed worker (worker.continueWork worker.queue) (some job)
  | expired (point : worker.point = .idling) (empty : worker.queue = []) :
      CalmlyResumed worker { worker with state := .dead, point := .closing } none
  | woken (point : worker.point = .idling) (queued : worker.queue ≠ []) :
      CalmlyResumed worker ({ worker with state := .working }.continueWork worker.queue) none

theorem hasMoreJobs_iff (worker : Worker) : worker.hasMoreJobs = true ↔ worker.queue ≠ [] := by
  unfold hasMoreJobs queueSize
  rw [decide_eq_true_eq, List.length_pos_iff]

theorem calmlyResumed_of_resume {worker after : Worker} (untroubled : worker.Untroubled)
    (outcome : (worker.resume false).1 = some after) :
    CalmlyResumed worker after (worker.resume false).2 := by
  have queued_iff := hasMoreJobs_iff worker
  unfold resume at outcome ⊢
  cases point : worker.point with
  | spawned =>
      simp only [point, Option.some.injEq] at outcome ⊢
      exact outcome ▸ CalmlyResumed.begun point
  | connecting =>
      by_cases queued : worker.hasMoreJobs = true
      · simp only [point, queued, if_true, Option.some.injEq] at outcome ⊢
        exact outcome ▸ CalmlyResumed.connected point (queued_iff.mp queued)
      · simp only [point, queued, Bool.false_eq_true, if_false, Option.some.injEq] at outcome ⊢
        exact outcome ▸ CalmlyResumed.unneeded point (not_not.mp (mt queued_iff.mpr queued))
  | running job =>
      simp only [point, Option.some.injEq] at outcome ⊢
      exact outcome ▸ CalmlyResumed.completed job point
  | reconnecting job => exact absurd point (untroubled.2 job)
  | idling =>
      by_cases queued : worker.hasMoreJobs = true
      · simp only [point, queued, if_true, Option.some.injEq] at outcome ⊢
        have woken := CalmlyResumed.woken point (queued_iff.mp queued)
        rw [point] at woken
        exact outcome ▸ woken
      · simp only [point, queued, Bool.false_eq_true, if_false, Option.some.injEq] at outcome ⊢
        exact outcome ▸ CalmlyResumed.expired point (not_not.mp (mt queued_iff.mpr queued))
  | closing =>
      simp only [point] at outcome
      cases outcome

/-- A resumed worker completes the first of its pending jobs or none, and keeps
the others. -/
theorem CalmlyResumed.pending_eq {worker after : Worker} {done : Option Ticket}
    (untroubled : worker.Untroubled) (resumed : CalmlyResumed worker after done) :
    done.toList ++ after.pending = worker.pending := by
  cases resumed with
  | begun point => simp only [pending, point, Option.toList_none, List.nil_append]
  | unneeded point empty => simp only [pending, point, Option.toList_none, List.nil_append]
  | connected point queued =>
      rw [continueWork_pending untroubled.1]
      simp only [pending, point, Option.toList_none, List.nil_append]
  | completed job point =>
      rw [continueWork_pending untroubled.1]
      simp only [pending, point, Option.toList_some, List.singleton_append]
  | expired point empty => simp only [pending, point, Option.toList_none, List.nil_append]
  | woken point queued =>
      rw [continueWork_pending (by exact untroubled.1)]
      simp only [pending, point, Option.toList_none, List.nil_append]

theorem continueWork_point {worker : Worker} (unspent : worker.retries = 0)
    (queue : List Ticket) :
    (worker.continueWork queue).point = .idling ∨
      ∃ job, (worker.continueWork queue).point = .running job := by
  cases queue with
  | nil => exact Or.inl rfl
  | cons job queue =>
      unfold continueWork
      rw [if_pos (by omega)]
      exact Or.inr ⟨job, rfl⟩

theorem continueWork_untroubled {worker : Worker} (unspent : worker.retries = 0)
    (queue : List Ticket) : (worker.continueWork queue).Untroubled := by
  refine ⟨(continueWork_retries worker queue).trans unspent, ?_⟩
  intro job
  rcases continueWork_point unspent queue with idling | ⟨other, running⟩
  · rw [idling]
    exact SwitchPoint.noConfusion
  · rw [running]
    exact SwitchPoint.noConfusion

theorem CalmlyResumed.untroubled {worker after : Worker} {done : Option Ticket}
    (untroubled : worker.Untroubled) (resumed : CalmlyResumed worker after done) :
    after.Untroubled := by
  cases resumed with
  | begun point => exact ⟨untroubled.1, fun _job => SwitchPoint.noConfusion⟩
  | unneeded point empty => exact ⟨untroubled.1, fun _job => SwitchPoint.noConfusion⟩
  | connected point queued => exact continueWork_untroubled untroubled.1 _
  | completed job point => exact continueWork_untroubled untroubled.1 _
  | expired point empty => exact ⟨untroubled.1, fun _job => SwitchPoint.noConfusion⟩
  | woken point queued =>
      apply continueWork_untroubled
      exact untroubled.1

end Worker

/-! ### Runs without failures -/

def PoolLabel.calm : PoolLabel → Prop
  | .request _url _job => True
  | .resume _url _number fails => fails = false

theorem Pool.step_calm_cases {pool next : Pool} {url : Bytes} {number : Nat}
    (untroubled : ∀ url, ∀ number ∈ pool.workers url, (pool.worker number).Untroubled)
    (stepped : pool.step (.resume url number false) = some next) :
    number ∈ pool.workers url ∧
      ((∃ after done, Worker.CalmlyResumed (pool.worker number) after done ∧
          next = { pool with
            worker := Function.update pool.worker number after
            executed := pool.executed ++ done.toList }) ∨
        (pool.worker number).point = .closing ∧
          next = { pool with
            workers := Function.update pool.workers url
              ((pool.workers url).erase number) }) := by
  obtain ⟨listed, ⟨after, outcome, shape⟩ | ⟨outcome, shape⟩⟩ := Pool.step_resume_cases stepped
  · exact ⟨listed, Or.inl ⟨after, _,
      Worker.calmlyResumed_of_resume (untroubled url number listed) outcome, shape⟩⟩
  · refine ⟨listed, Or.inr ?_⟩
    have closing : (pool.worker number).point = .closing ∧
        ((pool.worker number).resume false).2 = none := by
      unfold Worker.resume at outcome ⊢
      cases point : (pool.worker number).point with
      | closing => exact ⟨rfl, rfl⟩
      | spawned => simp [point] at outcome
      | connecting =>
          simp only [point] at outcome
          split at outcome
          · cases outcome
          · cases outcome
      | running job => simp [point] at outcome
      | reconnecting job => exact absurd point ((untroubled url number listed).2 job)
      | idling =>
          simp only [point] at outcome
          split at outcome
          · cases outcome
          · cases outcome
    refine ⟨closing.1, ?_⟩
    rw [shape, closing.2]
    simp only [Option.toList_none, List.append_nil]

/-! ### First in, first out -/

def ticketsOf (number : Nat) (tickets : List Ticket) : List Ticket :=
  tickets.filter fun ticket => ticket.worker = number

theorem ticketsOf_append (number : Nat) (front back : List Ticket) :
    ticketsOf number (front ++ back) = ticketsOf number front ++ ticketsOf number back :=
  List.filter_append _ _

theorem ticketsOf_own {number : Nat} {tickets : List Ticket}
    (own : ∀ ticket ∈ tickets, ticket.worker = number) : ticketsOf number tickets = tickets :=
  List.filter_eq_self.mpr (fun ticket member => decide_eq_true (own ticket member))

theorem ticketsOf_other {number other : Nat} {tickets : List Ticket}
    (own : ∀ ticket ∈ tickets, ticket.worker = other) (different : other ≠ number) :
    ticketsOf number tickets = [] := by
  apply List.filter_eq_nil_iff.mpr
  intro ticket member
  rw [own ticket member]
  exact fun same => different (of_decide_eq_true same)

theorem mem_ticketsOf {number : Nat} {ticket : Ticket} {tickets : List Ticket} :
    ticket ∈ ticketsOf number tickets ↔ ticket ∈ tickets ∧ ticket.worker = number := by
  unfold ticketsOf
  rw [List.mem_filter, decide_eq_true_eq]

/-- The jobs of a listed worker are completed or pending, in the order they were
added; those of any worker are completed in that order. -/
structure Pool.InOrder (pool : Pool) : Prop where
  listed_lt : ∀ url, ∀ number ∈ pool.workers url, number < pool.nextWorker
  added_lt : ∀ ticket ∈ pool.added, ticket.worker < pool.nextWorker
  id_lt : ∀ ticket ∈ pool.added, ticket.id < pool.nextJob
  ascending : pool.added.Pairwise fun left right => left.id < right.id
  untroubled : ∀ url, ∀ number ∈ pool.workers url, (pool.worker number).Untroubled
  flow : ∀ url, ∀ number ∈ pool.workers url,
    ticketsOf number pool.executed ++ (pool.worker number).pending =
      ticketsOf number pool.added
  completed : ∀ number, ticketsOf number pool.executed <+: ticketsOf number pool.added

theorem Pool.inOrder_empty : ({} : Pool).InOrder where
  listed_lt _url _number member := absurd member List.not_mem_nil
  added_lt _ticket member := absurd member List.not_mem_nil
  id_lt _ticket member := absurd member List.not_mem_nil
  ascending := List.Pairwise.nil
  untroubled _url _number member := absurd member List.not_mem_nil
  flow _url _number member := absurd member List.not_mem_nil
  completed _number := List.prefix_refl _

/-- No job was added for a worker that is still to be launched. -/
theorem Pool.InOrder.ticketsOf_next {pool : Pool} (inOrder : pool.InOrder) :
    ticketsOf pool.nextWorker pool.added = [] := by
  apply List.filter_eq_nil_iff.mpr
  intro ticket member same
  have bound := inOrder.added_lt ticket member
  rw [of_decide_eq_true same] at bound
  exact Nat.lt_irrefl _ bound

/-- The pool with one more worker. -/
theorem Pool.InOrder.launch {pool : Pool} (inOrder : pool.InOrder) (url : Bytes) :
    Pool.InOrder { pool with
      workers := Function.update pool.workers url (pool.nextWorker :: pool.workers url)
      worker := Function.update pool.worker pool.nextWorker { url := url, state := .ready }
      nextWorker := pool.nextWorker + 1 } := by
  have listed_cases (other : Bytes) (number : Nat)
      (member : number ∈
        Function.update pool.workers url (pool.nextWorker :: pool.workers url) other) :
      number = pool.nextWorker ∨ number ≠ pool.nextWorker ∧ number ∈ pool.workers other := by
    by_cases fresh : number = pool.nextWorker
    · exact Or.inl fresh
    · refine Or.inr ⟨fresh, ?_⟩
      by_cases same : other = url
      · subst same
        rw [Function.update_self] at member
        exact (List.mem_cons.mp member).resolve_left fresh
      · rw [Function.update_of_ne same] at member
        exact member
  refine ⟨?_, ?_, inOrder.id_lt, inOrder.ascending, ?_, ?_, inOrder.completed⟩
  · intro other number member
    rcases listed_cases other number member with rfl | ⟨_old, listed⟩
    · exact Nat.lt_succ_self _
    · exact Nat.lt_succ_of_lt (inOrder.listed_lt other number listed)
  · intro ticket member
    exact Nat.lt_succ_of_lt (inOrder.added_lt ticket member)
  · intro other number member
    dsimp only
    rcases listed_cases other number member with rfl | ⟨old, listed⟩
    · rw [Function.update_self]
      exact ⟨rfl, fun _job => SwitchPoint.noConfusion⟩
    · rw [Function.update_of_ne old]
      exact inOrder.untroubled other number listed
  · intro other number member
    dsimp only
    rcases listed_cases other number member with rfl | ⟨old, listed⟩
    · have completed := inOrder.completed pool.nextWorker
      rw [inOrder.ticketsOf_next] at completed
      rw [Function.update_self, inOrder.ticketsOf_next, List.prefix_nil.mp completed]
      rfl
    · rw [Function.update_of_ne old]
      exact inOrder.flow other number listed

theorem Pool.InOrder.getWorker {pool : Pool} (inOrder : pool.InOrder) (url : Bytes) :
    (pool.getWorker url).InOrder := by
  unfold Pool.getWorker
  split
  · exact inOrder.launch url
  · exact inOrder

theorem Worker.pending_queued (worker : Worker) (ticket : Ticket) :
    Worker.pending { worker with queue := worker.queue ++ [ticket] } =
      worker.pending ++ [ticket] := by
  unfold Worker.pending
  cases point : worker.point with
  | running job => exact (List.cons_append ..).symm
  | reconnecting job => exact (List.cons_append ..).symm
  | spawned => rfl
  | connecting => rfl
  | idling => rfl
  | closing => rfl

theorem Pool.InOrder.addJob {pool : Pool} (inOrder : pool.InOrder) {number : Nat}
    (launched : number < pool.nextWorker) (job : Job) : (pool.addJob number job).InOrder := by
  have own : ticketsOf number [⟨pool.nextJob, job, number⟩] = [⟨pool.nextJob, job, number⟩] :=
    ticketsOf_own (by simp)
  have foreign (other : Nat) (different : number ≠ other) :
      ticketsOf other [⟨pool.nextJob, job, number⟩] = [] :=
    ticketsOf_other (by simp) different
  refine ⟨inOrder.listed_lt, ?_, ?_, ?_, ?_, ?_, ?_⟩
  · intro ticket member
    rcases List.mem_append.mp member with old | new
    · exact inOrder.added_lt ticket old
    · obtain rfl := List.mem_singleton.mp new
      exact launched
  · intro ticket member
    rcases List.mem_append.mp member with old | new
    · exact Nat.lt_succ_of_lt (inOrder.id_lt ticket old)
    · obtain rfl := List.mem_singleton.mp new
      exact Nat.lt_succ_self _
  · apply List.pairwise_append.mpr
    refine ⟨inOrder.ascending, List.pairwise_singleton _ _, ?_⟩
    intro left old right new
    obtain rfl := List.mem_singleton.mp new
    exact inOrder.id_lt left old
  · intro url other member
    dsimp only [Pool.addJob]
    by_cases same : other = number
    · subst same
      rw [Function.update_self]
      exact inOrder.untroubled url other member
    · rw [Function.update_of_ne same]
      exact inOrder.untroubled url other member
  · intro url other member
    have flow := inOrder.flow url other member
    dsimp only [Pool.addJob]
    by_cases same : other = number
    · subst same
      rw [Function.update_self, Worker.pending_queued, ticketsOf_append, own, ← flow,
        List.append_assoc]
    · rw [Function.update_of_ne same, ticketsOf_append, foreign other (Ne.symm same),
        List.append_nil]
      exact flow
  · intro other
    apply (inOrder.completed other).trans
    dsimp only [Pool.addJob]
    rw [ticketsOf_append]
    exact List.prefix_append _ _

/-- A worker is resumed with one job fewer to do, or with as many. -/
theorem Pool.InOrder.advance {pool : Pool} (inOrder : pool.InOrder) {url : Bytes} {number : Nat}
    (listed : number ∈ pool.workers url) {after : Worker} {done : Option Ticket}
    (untroubled : after.Untroubled)
    (taken : done.toList ++ after.pending = (pool.worker number).pending) :
    Pool.InOrder { pool with
      worker := Function.update pool.worker number after
      executed := pool.executed ++ done.toList } := by
  have flow := inOrder.flow url number listed
  -- A completed job is one of the worker's own, since the flow says so.
  have own : ∀ ticket ∈ done.toList, ticket.worker = number := by
    intro ticket member
    have among : ticket ∈ ticketsOf number pool.added := by
      rw [← flow, ← taken]
      exact List.mem_append_right _ (List.mem_append_left _ member)
    exact (mem_ticketsOf.mp among).2
  have flowing : ticketsOf number (pool.executed ++ done.toList) ++ after.pending =
      ticketsOf number pool.added := by
    rw [ticketsOf_append, ticketsOf_own own, List.append_assoc, taken]
    exact flow
  have elsewhere (index : Nat) (different : index ≠ number) :
      ticketsOf index (pool.executed ++ done.toList) = ticketsOf index pool.executed := by
    rw [ticketsOf_append, ticketsOf_other own (Ne.symm different), List.append_nil]
  refine ⟨inOrder.listed_lt, inOrder.added_lt, inOrder.id_lt, inOrder.ascending, ?_, ?_, ?_⟩
  · intro other index member
    dsimp only
    by_cases same : index = number
    · subst same
      rw [Function.update_self]
      exact untroubled
    · rw [Function.update_of_ne same]
      exact inOrder.untroubled other index member
  · intro other index member
    dsimp only
    by_cases same : index = number
    · subst same
      rw [Function.update_self]
      exact flowing
    · rw [Function.update_of_ne same, elsewhere index same]
      exact inOrder.flow other index member
  · intro index
    dsimp only
    by_cases same : index = number
    · subst same
      rw [← flowing]
      exact List.prefix_append _ _
    · rw [elsewhere index same]
      exact inOrder.completed index

theorem Pool.InOrder.erase {pool : Pool} (inOrder : pool.InOrder) (url : Bytes) (number : Nat) :
    Pool.InOrder { pool with
      workers := Function.update pool.workers url ((pool.workers url).erase number) } where
  listed_lt other index member := inOrder.listed_lt other index (Pool.mem_of_mem_erased member)
  added_lt := inOrder.added_lt
  id_lt := inOrder.id_lt
  ascending := inOrder.ascending
  untroubled other index member := inOrder.untroubled other index (Pool.mem_of_mem_erased member)
  flow other index member := inOrder.flow other index (Pool.mem_of_mem_erased member)
  completed := inOrder.completed

theorem Pool.InOrder.resume {pool next : Pool} (inOrder : pool.InOrder) {url : Bytes}
    {number : Nat} (stepped : pool.step (.resume url number false) = some next) :
    next.InOrder := by
  obtain ⟨listed, ⟨after, done, resumed, rfl⟩ | ⟨_closing, rfl⟩⟩ :=
    Pool.step_calm_cases inOrder.untroubled stepped
  · have untroubled := inOrder.untroubled url number listed
    exact inOrder.advance listed (resumed.untroubled untroubled) (resumed.pending_eq untroubled)
  · exact inOrder.erase url number

theorem Pool.InOrder.step {pool next : Pool} {label : PoolLabel} (inOrder : pool.InOrder)
    (calm : label.calm) (stepped : pool.step label = some next) : next.InOrder := by
  cases label with
  | request url job =>
      have got := inOrder.getWorker url
      cases job with
      | none =>
          obtain rfl := Option.some.inj stepped
          exact got
      | some job =>
          obtain rfl := Option.some.inj stepped
          exact got.addJob (got.listed_lt url _ (pool.picked_mem_getWorker url)) job
  | resume url number fails =>
      replace calm : fails = false := calm
      subst calm
      exact inOrder.resume stepped

abbrev CalmRun : Pool → Pool → Prop :=
  Runs.Run Pool.step fun _pool label => label.calm

theorem Pool.inOrder_of_calmRun {pool : Pool} (run : CalmRun {} pool) : pool.InOrder :=
  Runs.invariant_of_run run Pool.inOrder_empty
    (fun _before _label _after inOrder calm stepped => inOrder.step calm stepped)

end Cdnalizerd
