/-
Workers in the shutdown of their connection.

A worker that has left the loop of `doWork` stays listed until its connection
is shut down, with an empty queue.  `getWorker` looks at the states Ready and
Idle and at the lengths of the queues only.
-/

import Cdnalizerd.WorkerRuns

namespace Cdnalizerd

open Library

/-! ### The least busy worker -/

variable {worker : Nat → Worker}

theorem leastBusy_idle {best : Nat} {rest : List Nat}
    (someIdle : ∃ number ∈ rest, (worker number).idle = true) :
    (worker (leastBusy worker best rest)).idle = true := by
  induction rest generalizing best with
  | nil =>
      obtain ⟨_number, member, _idle⟩ := someIdle
      exact absurd member List.not_mem_nil
  | cons result rest ih =>
      unfold leastBusy
      split
      · assumption
      rename_i busy
      have later : ∃ number ∈ rest, (worker number).idle = true := by
        obtain ⟨number, member, idle⟩ := someIdle
        rcases List.mem_cons.mp member with same | inRest
        · exact absurd (same ▸ idle) busy
        · exact ⟨number, inRest, idle⟩
      split
      · exact ih later
      · exact ih later

theorem leastBusy_of_empty {best : Nat} {rest : List Nat}
    (noneIdle : ∀ number ∈ rest, (worker number).idle ≠ true)
    (empty : (worker best).queueSize = 0) : leastBusy worker best rest = best := by
  induction rest with
  | nil => rfl
  | cons result rest ih =>
      unfold leastBusy
      rw [if_neg (noneIdle result List.mem_cons_self), if_neg (by omega)]
      exact ih (fun number member => noneIdle number (List.mem_cons_of_mem result member))

def firstUnqueued (worker : Nat → Worker) (listed : List Nat) : Option Nat :=
  listed.find? fun number => (worker number).queueSize = 0

theorem firstUnqueued_of_empty {result : Nat} (empty : (worker result).queueSize = 0)
    (rest : List Nat) : firstUnqueued worker (result :: rest) = some result :=
  List.find?_cons_of_pos (decide_eq_true empty)

theorem firstUnqueued_of_queued {result : Nat} (queued : (worker result).queueSize ≠ 0)
    (rest : List Nat) :
    firstUnqueued worker (result :: rest) = firstUnqueued worker rest :=
  List.find?_cons_of_neg (fun found => queued (of_decide_eq_true found))

theorem leastBusy_of_find {best : Nat} {rest : List Nat}
    (noneIdle : ∀ number ∈ rest, (worker number).idle ≠ true)
    (queued : (worker best).queueSize ≠ 0) :
    (∀ number, firstUnqueued worker rest = some number →
      leastBusy worker best rest = number) ∧
    (firstUnqueued worker rest = none →
      (worker (leastBusy worker best rest)).queueSize ≠ 0) := by
  induction rest generalizing best with
  | nil =>
      refine ⟨?_, fun _none => queued⟩
      intro number found
      cases found
  | cons result rest ih =>
      have restIdle (number : Nat) (member : number ∈ rest) : (worker number).idle ≠ true :=
        noneIdle number (List.mem_cons_of_mem result member)
      unfold leastBusy
      rw [if_neg (noneIdle result List.mem_cons_self)]
      by_cases empty : (worker result).queueSize = 0
      · rw [if_pos (by omega), leastBusy_of_empty restIdle empty,
          firstUnqueued_of_empty empty]
        refine ⟨fun number found => Option.some.inj found, ?_⟩
        intro none_found
        cases none_found
      · rw [firstUnqueued_of_queued empty]
        split
        · exact ih restIdle empty
        · exact ih restIdle queued

/-! ### Where the workers wait -/

def SwitchPoint.states : SwitchPoint → List WorkerState
  | .spawned => [.ready]
  | .connecting => [.working]
  | .running _job => [.working]
  | .reconnecting _job => [.working]
  | .idling => [.idle]
  | .closing => [.working, .dead]

structure Worker.WellPlaced (worker : Worker) : Prop where
  untroubled : worker.Untroubled
  state_mem : worker.state ∈ worker.point.states
  closing_empty : worker.point = .closing → worker.queue = []

namespace Worker

theorem WellPlaced.not_idle {worker : Worker} (placed : worker.WellPlaced)
    (closing : worker.point = .closing) : worker.idle ≠ true := by
  have member := placed.state_mem
  rw [closing] at member
  unfold idle
  simp only [SwitchPoint.states, List.mem_cons, List.not_mem_nil, or_false] at member
  rcases member with working | dead
  · rw [working]
    decide
  · rw [dead]
    decide

theorem WellPlaced.closing_of_dead {worker : Worker} (placed : worker.WellPlaced)
    (dead : worker.state = .dead) : worker.point = .closing := by
  have member := placed.state_mem
  rw [dead] at member
  cases point : worker.point with
  | closing => rfl
  | spawned => simp [point, SwitchPoint.states] at member
  | connecting => simp [point, SwitchPoint.states] at member
  | running job => simp [point, SwitchPoint.states] at member
  | reconnecting job => simp [point, SwitchPoint.states] at member
  | idling => simp [point, SwitchPoint.states] at member

/-- The loop of `doWork` ends at a job or idling, with the state that goes with it. -/
theorem continueWork_wellPlaced {worker : Worker} (unspent : worker.retries = 0)
    (working : worker.state = .working) (queue : List Ticket) :
    (worker.continueWork queue).WellPlaced := by
  refine ⟨continueWork_untroubled unspent queue, ?_, ?_⟩
  · cases queue with
    | nil => exact List.mem_singleton_self _
    | cons job queue =>
        unfold continueWork
        rw [if_pos (by omega)]
        exact List.mem_singleton.mpr working
  · intro closing
    rcases continueWork_point unspent queue with idling | ⟨job, running⟩
    · rw [idling] at closing
      cases closing
    · rw [running] at closing
      cases closing

theorem CalmlyResumed.wellPlaced {worker after : Worker} {done : Option Ticket}
    (placed : worker.WellPlaced) (resumed : CalmlyResumed worker after done) :
    after.WellPlaced := by
  have untroubled := resumed.untroubled placed.untroubled
  have unspent := placed.untroubled.1
  have member := placed.state_mem
  cases resumed with
  | begun point => exact ⟨untroubled, List.mem_singleton_self _, fun closing => nomatch closing⟩
  | unneeded point empty =>
      rw [point] at member
      exact ⟨untroubled, List.mem_cons.mpr (Or.inl (List.mem_singleton.mp member)),
        fun _closing => empty⟩
  | connected point queued =>
      rw [point] at member
      exact continueWork_wellPlaced unspent (List.mem_singleton.mp member) _
  | completed job point =>
      rw [point] at member
      exact continueWork_wellPlaced unspent (List.mem_singleton.mp member) _
  | expired point empty =>
      exact ⟨untroubled, List.mem_cons_of_mem _ (List.mem_singleton_self _), fun _closing => empty⟩
  | woken point queued => exact continueWork_wellPlaced (by exact unspent) rfl _

end Worker

/-! ### The worker a request is given -/

/-- `doWork` will not look at the queue of this worker again. -/
def Worker.lastCheckMade (worker : Worker) : Bool :=
  worker.point = .closing || worker.state = .dead

/-- There is room for another worker, or one is idle, or the first with an
empty queue is not in the shutdown of its connection. -/
def Pool.SafeRequest (pool : Pool) (url : Bytes) : Prop :=
  (pool.workers url).length < maxWorkersPerURL ∨
    (∃ number ∈ pool.workers url, (pool.worker number).idle = true) ∨
    ∀ number, firstUnqueued pool.worker (pool.workers url) = some number →
      (pool.worker number).point ≠ .closing

def Pool.WellPlaced (pool : Pool) : Prop :=
  ∀ url, ∀ number ∈ pool.workers url, (pool.worker number).WellPlaced

theorem Worker.lastCheckMade_iff {worker : Worker} (placed : worker.WellPlaced) :
    worker.lastCheckMade = true ↔ worker.point = .closing := by
  unfold lastCheckMade
  rw [Bool.or_eq_true, decide_eq_true_eq, decide_eq_true_eq]
  exact ⟨fun made => made.elim id placed.closing_of_dead, Or.inl⟩

theorem Pool.picked_of_full {pool : Pool} {url : Bytes}
    (full : ¬ (pool.workers url).length < maxWorkersPerURL)
    (noneIdle : ∀ number ∈ pool.workers url, (pool.worker number).idle ≠ true) :
    (∀ number, firstUnqueued pool.worker (pool.workers url) = some number →
      pool.picked url = number) ∧
    (firstUnqueued pool.worker (pool.workers url) = none →
      (pool.worker (pool.picked url)).queueSize ≠ 0) := by
  unfold picked
  rw [if_neg full]
  cases listed : pool.workers url with
  | nil =>
      rw [listed] at full
      exact absurd (by decide) full
  | cons first rest =>
      rw [listed] at noneIdle
      rw [List.headD_cons]
      by_cases empty : (pool.worker first).queueSize = 0
      · rw [leastBusy_of_empty noneIdle empty, firstUnqueued_of_empty empty]
        refine ⟨fun number found => Option.some.inj found, ?_⟩
        intro none_found
        cases none_found
      · exact leastBusy_of_find noneIdle empty

/-- A request is given a worker past its last check exactly when it is not safe. -/
theorem Pool.WellPlaced.picked_working_iff {pool : Pool} (placed : pool.WellPlaced) (url : Bytes) :
    ((pool.getWorker url).worker (pool.picked url)).lastCheckMade = false ↔
      pool.SafeRequest url := by
  by_cases full : (pool.workers url).length < maxWorkersPerURL
  · refine ⟨fun _working => Or.inl full, fun _safe => ?_⟩
    rw [Pool.worker_getWorker, if_pos ⟨by rw [picked, if_pos full], full⟩]
    rfl
  have listed := Pool.picked_mem full
  have pickedPlaced := placed url _ listed
  rw [Pool.worker_getWorker, if_neg (fun fresh => full fresh.2), Bool.eq_false_iff,
    Ne, Worker.lastCheckMade_iff pickedPlaced]
  by_cases someIdle : ∃ number ∈ pool.workers url, (pool.worker number).idle = true
  · refine ⟨fun _working => Or.inr (Or.inl someIdle), fun _safe closing => ?_⟩
    apply pickedPlaced.not_idle closing
    unfold picked
    rw [if_neg full]
    exact leastBusy_idle someIdle
  have noneIdle (number : Nat) (member : number ∈ pool.workers url) :
      (pool.worker number).idle ≠ true := fun idle => someIdle ⟨number, member, idle⟩
  obtain ⟨found_picked, none_queued⟩ := Pool.picked_of_full full noneIdle
  constructor
  · intro working
    refine Or.inr (Or.inr ?_)
    intro number found
    rw [← found_picked number found]
    exact working
  · rintro (room | idle | safe) closing
    · exact full room
    · exact someIdle idle
    · cases found : firstUnqueued pool.worker (pool.workers url) with
      | none =>
          apply none_queued found
          unfold Worker.queueSize
          rw [pickedPlaced.closing_empty closing, List.length_nil]
      | some number =>
          apply safe number found
          rw [← found_picked number found]
          exact closing

/-! ### Runs of safe requests -/

/-- No network operation fails, and every request is safe. -/
def Pool.safe (pool : Pool) : PoolLabel → Prop
  | .request url _job => pool.SafeRequest url
  | .resume _url _number fails => fails = false

theorem Pool.WellPlaced.step {pool next : Pool} {label : PoolLabel} (placed : pool.WellPlaced)
    (safe : pool.safe label) (stepped : pool.step label = some next) : next.WellPlaced := by
  apply Pool.listed_of_step stepped placed
  · intro url
    exact ⟨⟨rfl, fun _job => SwitchPoint.noConfusion⟩, List.mem_singleton_self _,
      fun closing => nomatch closing⟩
  · intro url job request given ticket picked before
    refine ⟨before.untroubled, before.state_mem, ?_⟩
    intro closing
    subst request
    have working := (placed.picked_working_iff url).mpr safe
    rw [← picked] at working
    rw [(Worker.lastCheckMade_iff before).mpr closing] at working
    cases working
  · intro url number fails resume before after outcome
    subst resume
    replace safe : fails = false := safe
    subst safe
    exact (Worker.calmlyResumed_of_resume before.untroubled outcome).wellPlaced before

theorem Pool.wellPlaced_of_run {pool : Pool} (run : Runs.Run Pool.step Pool.safe {} pool) :
    pool.WellPlaced :=
  Runs.invariant_of_run run (fun _url _number member => absurd member List.not_mem_nil)
    (fun _before _label _after placed safe stepped => placed.step safe stepped)

def Pool.Erases (pool next : Pool) (number : Nat) : Prop :=
  ∃ url, number ∈ pool.workers url ∧ number ∉ next.workers url

/-- A worker is erased behind the shutdown of its connection. -/
theorem Pool.WellPlaced.erased_empty {pool next : Pool} {label : PoolLabel}
    (placed : pool.WellPlaced) (calm : label.calm) (stepped : pool.step label = some next)
    {number : Nat} (erased : pool.Erases next number) : (pool.worker number).queue = [] := by
  obtain ⟨url, listed, unlisted⟩ := erased
  have kept (target : Bytes) (stays : number ∉ (pool.getWorker target).workers url) : False := by
    apply stays
    unfold getWorker
    split
    · by_cases same : url = target
      · subst same
        dsimp only
        rw [Function.update_self]
        exact List.mem_cons_of_mem _ listed
      · dsimp only
        rw [Function.update_of_ne same]
        exact listed
    · exact listed
  cases label with
  | request target job =>
      cases job with
      | none =>
          obtain rfl := Option.some.inj stepped
          exact (kept target unlisted).elim
      | some job =>
          obtain rfl := Option.some.inj stepped
          exact (kept target unlisted).elim
  | resume target index fails =>
      replace calm : fails = false := calm
      subst calm
      obtain ⟨_listed, ⟨after, done, _resumed, rfl⟩ | ⟨closing, rfl⟩⟩ :=
        Pool.step_calm_cases (fun other index member => (placed other index member).untroubled)
          stepped
      · exact absurd listed unlisted
      · dsimp only at unlisted
        by_cases same : url = target
        · subst same
          rw [Function.update_self] at unlisted
          by_cases sameNumber : number = index
          · subst sameNumber
            exact (placed url number listed).closing_empty closing
          · exact absurd ((List.mem_erase_of_ne sameNumber).mpr listed) unlisted
        · rw [Function.update_of_ne same] at unlisted
          exact absurd listed unlisted

/-- While requests are safe, `getWorker` returns a worker past its last check
exactly when the next request is not, and no worker is erased with a job. -/
theorem picked_worker_works {pool : Pool} (run : Runs.Run Pool.step Pool.safe {} pool) :
    (∀ url, ((pool.getWorker url).worker (pool.picked url)).lastCheckMade = false ↔
      pool.SafeRequest url) ∧
    ∀ label next number, label.calm → pool.step label = some next → pool.Erases next number →
      (pool.worker number).queue = [] :=
  ⟨(Pool.wellPlaced_of_run run).picked_working_iff,
    fun _label _next _number calm stepped erased =>
      (Pool.wellPlaced_of_run run).erased_empty calm stepped erased⟩

/-- The worker at the front of a full list closes, and the one behind it idles. -/
def frontCloses : List PoolLabel :=
  [.request (text "u") (some (.remoteDelete sampleBase)),
    .request (text "u") (some (.remoteDelete sampleBase)), .request (text "u") none,
    .resume (text "u") 2 false, .resume (text "u") 2 false, .resume (text "u") 1 false,
    .resume (text "u") 1 false, .resume (text "u") 1 false]

theorem frontCloses_replay : (Runs.replay Pool.step {} frontCloses).isSome = true := by
  decide

theorem picked_worker_works_sample :
    ∃ pool : Pool, pool.workers (text "u") = [2, 1, 0] ∧ (pool.worker 2).point = .closing ∧
      ((pool.getWorker (text "u")).worker (pool.picked (text "u"))).lastCheckMade = false := by
  let pool := (Runs.replay Pool.step {} frontCloses).get frontCloses_replay
  have safe : Runs.Along Pool.step (fun state label _next => state.safe label) {}
      frontCloses :=
    ⟨Or.inl (by decide), Or.inl (by decide), Or.inl (by decide), rfl, rfl, rfl, rfl, rfl, trivial⟩
  have run := Runs.run_of_along (Option.some_get frontCloses_replay).symm safe
  have idle : pool.SafeRequest (text "u") := Or.inr (Or.inl ⟨1, by decide, by decide⟩)
  exact ⟨pool, by decide, by decide, ((picked_worker_works run).1 (text "u")).mpr idle⟩

/-- The worker at the front of a full list expires while the others connect. -/
def frontExpires : List PoolLabel :=
  List.replicate 3 (.request (text "u") (some (.remoteDelete sampleBase))) ++
    List.replicate 4 (.resume (text "u") 2 false) ++
      [.resume (text "u") 1 false, .resume (text "u") 0 false]

theorem job_given_past_last_check :
    ¬ (∀ pool : Pool, CalmRun {} pool → ∀ url,
        ((pool.getWorker url).worker (pool.picked url)).lastCheckMade = false) ∧
      ¬ ∀ pool : Pool, CalmRun {} pool → ∀ label next number, label.calm →
        pool.step label = some next → pool.Erases next number →
          (pool.worker number).queue = [] := by
  let full := (Runs.replay Pool.step {} frontExpires).get (by decide)
  have run : CalmRun {} full := by
    apply Runs.run_of_replay_get
    intro label member _pool
    rcases List.mem_append.mp member with front | connecting
    · rcases List.mem_append.mp front with asked | resumed
      · rw [List.eq_of_mem_replicate asked]
        exact trivial
      · rw [List.eq_of_mem_replicate resumed]
        exact rfl
    · simp only [List.mem_cons, List.not_mem_nil, or_false] at connecting
      rcases connecting with rfl | rfl
      · exact rfl
      · exact rfl
  constructor
  · intro works
    have picked := works full run (text "u")
    revert picked
    decide
  · intro emptied
    let given := (full.getWorker (text "u")).addJob (full.picked (text "u"))
      (.remoteDelete sampleBase)
    have givenRun : CalmRun {} given :=
      run.tail ⟨.request (text "u") (some (.remoteDelete sampleBase)), trivial, rfl⟩
    let label := PoolLabel.resume (text "u") 2 false
    let next := (given.step label).get (by decide)
    have erased : given.Erases next 2 := ⟨text "u", by decide, by decide⟩
    have queue := emptied given givenRun label next 2 rfl (Option.some_get _).symm erased
    revert queue
    decide

end Cdnalizerd
