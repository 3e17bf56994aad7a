/-
The watched files while the workers complete the jobs.

The daemon hands its jobs to the workers as it handles the events.  An attempt that
a worker is resumed from has done to the objects what the server carried out of it,
and it completes the job unless it throws.  A job that two others wait behind may be
completed first, as long as neither is about the same object.
-/

import Cdnalizerd.FileMirror
import Cdnalizerd.OutstandingJobs

namespace Cdnalizerd

open Library

/-! ### Jobs out of turn -/

namespace FileSetting

variable {setting : FileSetting} {contents : Set Bytes} {world : FileWorld}

theorem destination_of_jobWork (running : setting.Running contents world) {job : Job}
    (waiting : job ∈ world.jobs) {path : Bytes} {dest : URL} (kept : setting.Kept path dest)
    {work : WriteBehind.Work} (worked : jobWork path dest job = some work) :
    job.destination = dest := by
  obtain ⟨other, otherDest, otherKept, rfl | rfl⟩ := running.waiting job waiting
  · obtain ⟨rfl, _work⟩ := Option.ite_none_right_eq_some.mp worked
    exact Except.ok.inj (otherKept.named.symm.trans kept.named)
  · exact (Option.ite_none_right_eq_some.mp worked).1

/-- A job may be taken before others that are about other objects. -/
theorem carried_hasten (running : setting.Running contents world) {before after : List Job}
    {job : Job} (split : world.jobs = before ++ job :: after)
    (unrelated : ∀ other ∈ before, other.destination.path ≠ job.destination.path) :
    setting.Carried contents world { world with jobs := job :: (before ++ after) } := by
  have waiting : job ∈ world.jobs := by
    rw [split]
    exact List.mem_append_right _ List.mem_cons_self
  constructor
  · refine ⟨running.alive, running.filed, running.stored, running.queued, ?_⟩
    intro other member
    apply running.waiting other
    rw [split]
    exact List.perm_middle.symm.subset member
  · intro path dest kept
    have moved : (job :: (before ++ after)).filterMap (jobWork path dest) =
        world.jobs.filterMap (jobWork path dest) := by
      rw [split, List.filterMap_cons, List.filterMap_append, List.filterMap_append,
        List.filterMap_cons]
      cases worked : jobWork path dest job with
      | none => rfl
      | some work =>
          have idle : before.filterMap (jobWork path dest) = [] := by
            apply List.filterMap_eq_nil_iff.mpr
            intro other inFront
            rw [Option.eq_none_iff_forall_ne_some]
            intro otherWork otherWorked
            apply unrelated other inFront
            have otherWaiting : other ∈ world.jobs := by
              rw [split]
              exact List.mem_append_left _ inFront
            rw [destination_of_jobWork running waiting kept worked,
              destination_of_jobWork running otherWaiting kept otherWorked]
          rw [idle]
          rfl
    have same : setting.view { world with jobs := job :: (before ++ after) } path dest =
        setting.view world path dest := by
      unfold view
      dsimp only
      rw [moved]
    rw [same]

theorem carried_applyBetween (running : setting.Running contents world)
    (apart : Set.InjOn (fun content => hexString (setting.md5 content)) contents)
    {before after : List Job} {job : Job} (split : world.jobs = before ++ job :: after)
    (unrelated : ∀ other ∈ before, other.destination.path ≠ job.destination.path) :
    setting.Carried contents world
      (FileSetting.applied world (before ++ after) (setting.storeAfter world job)) := by
  have hastened := carried_hasten running split unrelated
  exact hastened.trans (carried_applyJob hastened.running apart rfl)

end FileSetting

/-! ### Requests to the workers -/

/-- A request of a process, with the number of the worker it was given last. -/
def Pool.serve (state : Pool × Nat) : WatchAction → Pool × Nat
  | .request (.getWorker url) => (state.1.getWorker url, state.1.picked url)
  | .request (.addJob job) => (state.1.addJob state.2 job, state.2)
  | .addWatch _path _mask _handle => state
  | .rmWatch _handle => state

/-- The pool keeps its order, and the jobs are outstanding now. -/
structure Pool.Served (state : Pool × Nat) (jobs : List Job) (final : Pool × Nat) : Prop where
  inOrder : final.1.InOrder
  launched : final.2 < final.1.nextWorker
  outstanding : final.1.outstanding.map Ticket.job = state.1.outstanding.map Ticket.job ++ jobs

theorem Pool.served_getWorker {pool : Pool} (inOrder : pool.InOrder) (number : Nat)
    (url : Bytes) :
    Pool.Served (pool, number) [] (Pool.serve (pool, number) (.request (.getWorker url))) where
  inOrder := inOrder.getWorker url
  launched := (inOrder.getWorker url).listed_lt url _ (pool.picked_mem_getWorker url)
  outstanding := by
    rw [List.append_nil]
    exact congrArg _ (Pool.outstanding_getWorker pool url)

theorem Pool.served_trace {state : Pool × Nat} (inOrder : state.1.InOrder)
    (launched : state.2 < state.1.nextWorker) (trace : List WatchAction) :
    Pool.Served state (queuedJobs trace) (trace.foldl Pool.serve state) := by
  induction trace generalizing state with
  | nil => exact ⟨inOrder, launched, (List.append_nil _).symm⟩
  | cons action rest ih =>
      rw [List.foldl_cons]
      cases action with
      | request request =>
          cases request with
          | getWorker url =>
              have got := Pool.served_getWorker inOrder state.2 url
              have later := ih got.inOrder got.launched
              refine ⟨later.inOrder, later.launched, later.outstanding.trans ?_⟩
              rw [got.outstanding, List.append_nil]
              rfl
          | addJob job =>
              have later := @ih (state.1.addJob state.2 job, state.2)
                (inOrder.addJob launched job) launched
              refine ⟨later.inOrder, later.launched, later.outstanding.trans ?_⟩
              rw [inOrder.outstanding_addJob, List.map_append, List.append_assoc]
              rfl
      | addWatch path mask handle => exact ih inOrder launched
      | rmWatch handle => exact ih inOrder launched

/-! ### The world with its workers -/

/-- Whether the operation fails that a worker waits for.  An attempt fails if it
throws. -/
def Worker.fails (worker : Worker) (token : Bytes) (service : Service) (broken : Bool) : Bool :=
  match worker.point with
  | .running ticket => (ticket.job.go token service.around).result.toOption.isNone
  | _ => broken

def Worker.leaves (worker : Worker) (token : Bytes) (service : Service)
    (files store : Bytes → Option Bytes) : Bytes → Option Bytes :=
  match worker.point with
  | .running ticket => service.storeBehind token files store ticket.job
  | _ => store

namespace Worker

variable {worker : Worker} {token : Bytes} {service : Service} {broken : Bool} {ticket : Ticket}
  {files store : Bytes → Option Bytes}

theorem leaves_of_running (running : worker.point = .running ticket) :
    worker.leaves token service files store =
      service.storeBehind token files store ticket.job := by
  unfold leaves
  rw [running]

theorem leaves_of_no_attempt (idle : ¬ ∃ ticket, worker.point = .running ticket) :
    worker.leaves token service files store = store := by
  unfold leaves
  split
  · rename_i ticket running
    exact absurd ⟨ticket, running⟩ idle
  · rfl

theorem returned_of_not_fails (running : worker.point = .running ticket)
    (well : worker.fails token service broken = false) :
    (ticket.job.go token service.around).result = .ok () := by
  unfold fails at well
  rw [running] at well
  dsimp only at well
  cases outcome : (ticket.job.go token service.around).result with
  | ok done => rfl
  | error thrown =>
      rw [outcome] at well
      cases well

end Worker

structure LiveWorld where
  files : Bytes → Option Bytes
  queue : List Event := []
  daemon : Option Daemon
  pool : Pool := {}
  store : Bytes → Option Bytes

inductive LiveLabel where
  | operate (operation : FileOperation) (merges : List Bool)
  | handleEvent
  /-- A worker's coroutine resumed, whether its connection is broken, and what an
  attempt at a job has met with. -/
  | resume (url : Bytes) (number : Nat) (broken : Bool) (service : Service)

namespace LiveWorld

/-- The world in which the outstanding jobs are still queued. -/
def toFileWorld (world : LiveWorld) : FileWorld where
  files := world.files
  queue := world.queue
  daemon := world.daemon
  jobs := world.pool.outstanding.map Ticket.job
  store := world.store

def step (setting : FileSetting) (world : LiveWorld) : LiveLabel → Option LiveWorld
  | .operate operation merges =>
      (setting.operate world.files operation).map fun operated =>
        { world with
          files := operated.1
          queue := report setting.maxQueuedEvents maskToFollow merges world.queue operated.2 }
  | .handleEvent =>
      match world.queue, world.daemon with
      | event :: queue, some daemon =>
          let handled := Cdnalizerd.handleEvent setting.accounts world.toFileWorld.surroundings
            daemon event
          some { world with
            queue := queue
            daemon := handled.result.toOption
            pool := (handled.trace.foldl Pool.serve (world.pool, 0)).1 }
      | _, _ => none
  | .resume url number broken service =>
      let worker := world.pool.worker number
      let fails := worker.fails setting.rs.token service broken
      (world.pool.step (.resume url number fails)).map fun next =>
        { world with
          pool := next
          store := worker.leaves setting.rs.token service world.files world.store }

end LiveWorld

/-- The operations are harmless, a closed file is still there when its event is
handled, no two workers have jobs for one object, no connection breaks, and every
attempt is carried out. -/
def FileSetting.Undisturbed (setting : FileSetting) (contents : Set Bytes) (world : LiveWorld) :
    LiveLabel → Prop
  | .operate operation merges =>
      setting.Harmless contents world.toFileWorld (.operate operation merges)
  | .handleEvent => setting.Harmless contents world.toFileWorld .handleEvent
  | .resume _url number broken service =>
      world.pool.OneWorkerEach ∧ broken = false ∧
        ∀ ticket, (world.pool.worker number).point = .running ticket →
          service = setting.goodService world.toFileWorld ticket.job

def LiveWorld.served (setting : FileSetting) (world : LiveWorld) (number : Nat) : Service :=
  match (world.pool.worker number).point with
  | .running ticket => setting.goodService world.toFileWorld ticket.job
  | _ => setting.goodService world.toFileWorld (.remoteDelete setting.url)

namespace FileSetting

variable {setting : FileSetting} {contents : Set Bytes} {world next : LiveWorld}

structure Live (setting : FileSetting) (contents : Set Bytes) (start : FileWorld)
    (world : LiveWorld) : Prop where
  inOrder : world.pool.InOrder
  carried : setting.Carried contents start world.toFileWorld

theorem step_handleEvent {world : FileWorld} {event : Event} {rest : List Event}
    {daemon : Daemon} (front : world.queue = event :: rest)
    (alive : world.daemon = some daemon) :
    world.step setting .handleEvent = some { world with
      queue := rest
      daemon := (Cdnalizerd.handleEvent setting.accounts world.surroundings daemon
        event).result.toOption
      jobs := world.jobs ++ queuedJobs (Cdnalizerd.handleEvent setting.accounts
        world.surroundings daemon event).trace } := by
  unfold FileWorld.step
  dsimp only
  rw [front, alive]

theorem Live.operate {start : FileWorld} (live : setting.Live contents start world)
    {operation : FileOperation} {merges : List Bool}
    (harmless : setting.Harmless contents world.toFileWorld (.operate operation merges))
    (stepped : world.step setting (.operate operation merges) = some next) :
    setting.Live contents start next := by
  obtain ⟨operated, changed, rfl⟩ := Option.map_eq_some_iff.mp stepped
  refine ⟨live.inOrder, live.carried.trans ?_⟩
  exact carried_of_operate live.carried.running harmless
    (Option.map_eq_some_iff.mpr ⟨operated, changed, rfl⟩)

theorem Live.handleEvent {start : FileWorld} (live : setting.Live contents start world)
    (harmless : setting.Harmless contents world.toFileWorld .handleEvent)
    (stepped : world.step setting .handleEvent = some next) :
    setting.Live contents start next := by
  have running := live.carried.running
  have alive : world.daemon = some setting.daemon := running.alive
  unfold LiveWorld.step at stepped
  dsimp only at stepped
  rw [alive] at stepped
  cases front : world.queue with
  | nil =>
      rw [front] at stepped
      cases stepped
  | cons event rest =>
      rw [front] at stepped
      obtain rfl := Option.some.inj stepped
      have queued : event ∈ world.toFileWorld.queue := by
        change event ∈ world.queue
        rw [front]
        exact List.mem_cons_self
      obtain ⟨path, located, _reportable⟩ := running.queued event queued
      have served : Pool.Served (world.pool, 0)
          (queuedJobs (Cdnalizerd.handleEvent setting.accounts world.toFileWorld.surroundings
            setting.daemon event).trace)
          ((Cdnalizerd.handleEvent setting.accounts world.toFileWorld.surroundings
            setting.daemon event).trace.foldl Pool.serve (world.pool, 0)) := by
        rw [handled_of_located located, Traced.emit_bind]
        have got := Pool.served_getWorker live.inOrder 0 setting.url.raw
        have later := Pool.served_trace got.inOrder got.launched
          (dispatch world.toFileWorld.surroundings setting.daemon event
            ⟨setting.entry, setting.url, path, relativeTo path setting.entry.localDir⟩).trace
        refine ⟨later.inOrder, later.launched, ?_⟩
        rw [List.foldl_cons, later.outstanding, got.outstanding, List.append_nil]
        rfl
      refine ⟨served.inOrder, live.carried.trans ?_⟩
      apply carried_of_handleEvent running harmless
      rw [step_handleEvent (show world.toFileWorld.queue = _ from front) running.alive]
      exact congrArg (fun jobs => some (FileWorld.mk world.files rest _ jobs world.store))
        served.outstanding.symm

section Well

variable {number : Nat} {broken : Bool} {service : Service}

theorem fails_of_well (whole : broken = false)
    (well : ∀ ticket, (world.pool.worker number).point = .running ticket →
      service = setting.goodService world.toFileWorld ticket.job) :
    (world.pool.worker number).fails setting.rs.token service broken = false := by
  unfold Worker.fails
  split
  · rename_i ticket running
    rw [well ticket running]
    change (ticket.job.go _ (setting.attemptSurroundings _ _ _)).result.toOption.isNone = false
    rw [go_returns]
    rfl
  · exact whole

/-- A resumed worker has done the job that it completes. -/
theorem leaves_of_well
    (well : ∀ ticket, (world.pool.worker number).point = .running ticket →
      service = setting.goodService world.toFileWorld ticket.job) :
    (world.pool.worker number).leaves setting.rs.token service world.files world.store =
      ((world.pool.worker number).resume false).2.elim world.store fun ticket =>
        setting.storeAfter world.toFileWorld ticket.job := by
  unfold Worker.leaves Worker.resume
  cases point : (world.pool.worker number).point with
  | running ticket =>
      rw [well ticket point]
      exact storeBehind_goodService world.toFileWorld ticket.job
  | spawned => rfl
  | connecting =>
      dsimp only
      split
      · rfl
      · rfl
  | reconnecting ticket =>
      dsimp only
      split
      · rfl
      · rfl
  | idling =>
      dsimp only
      split
      · rfl
      · rfl
  | closing => rfl

end Well

theorem Live.resume {start : FileWorld} (live : setting.Live contents start world)
    (apart : Set.InjOn (fun content => hexString (setting.md5 content)) contents)
    {url : Bytes} {number : Nat} {broken : Bool} {service : Service}
    (undisturbed : setting.Undisturbed contents world (.resume url number broken service))
    (stepped : world.step setting (.resume url number broken service) = some next) :
    setting.Live contents start next := by
  obtain ⟨oneEach, whole, well⟩ := undisturbed
  obtain ⟨pool, poolStepped, rfl⟩ := Option.map_eq_some_iff.mp stepped
  rw [fails_of_well whole well] at poolStepped
  rw [leaves_of_well well]
  refine ⟨live.inOrder.resume poolStepped, live.carried.trans ?_⟩
  have running := live.carried.running
  cases done : ((world.pool.worker number).resume false).2 with
  | none =>
      have unchanged : LiveWorld.toFileWorld { world with pool := pool } = world.toFileWorld := by
        unfold LiveWorld.toFileWorld
        dsimp only
        rw [Pool.outstanding_of_idle poolStepped done]
      rw [Option.elim_none, unchanged]
      exact ⟨running, fun _path _dest _kept => Relation.ReflTransGen.refl⟩
  | some ticket =>
      obtain ⟨before, after, split, left, others⟩ :=
        live.inOrder.outstanding_of_completed poolStepped done
      have jobs : world.toFileWorld.jobs =
          before.map Ticket.job ++ ticket.job :: after.map Ticket.job := by
        change world.pool.outstanding.map Ticket.job = _
        rw [split, List.map_append, List.map_cons]
      have unrelated : ∀ other ∈ before.map Ticket.job,
          other.destination.path ≠ ticket.job.destination.path := by
        intro other inFront samePath
        obtain ⟨earlier, member, rfl⟩ := List.mem_map.mp inFront
        apply others earlier member
        apply oneEach earlier _ ticket _ samePath
        · rw [split]
          exact List.mem_append_left _ member
        · rw [split]
          exact List.mem_append_right _ List.mem_cons_self
      have applied : LiveWorld.toFileWorld { world with
          pool := pool
          store := setting.storeAfter world.toFileWorld ticket.job } =
          FileSetting.applied world.toFileWorld (before.map Ticket.job ++ after.map Ticket.job)
            (setting.storeAfter world.toFileWorld ticket.job) := by
        unfold LiveWorld.toFileWorld FileSetting.applied
        dsimp only
        rw [left, List.map_append]
      rw [Option.elim_some, applied]
      exact carried_applyBetween running apart jobs unrelated

end FileSetting

end Cdnalizerd
