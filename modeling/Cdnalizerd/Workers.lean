/-
The worker manager and the coroutines of its workers.

Between two switch points a coroutine runs alone, so a step is a request of a
process, or one coroutine resumed at the switch point it waits at.  The
workers of one URL are a list of numbers, and a number stands for a list node:
it is never used again.
-/

import Cdnalizerd.Jobs
import Cdnalizerd.Library.Runs

namespace Cdnalizerd

open Library

inductive WorkerState where
  | raw
  | ready
  | working
  | idle
  | dead
deriving DecidableEq

/-- A job with its id, and with the worker it was given to. -/
structure Ticket where
  id : Nat
  job : Job
  worker : Nat
deriving DecidableEq

inductive SwitchPoint where
  /-- Spawned, and not begun yet. -/
  | spawned
  | connecting
  | running (job : Ticket)
  | reconnecting (job : Ticket)
  | idling
  /-- In the shutdown of the connection, with `doWork` left behind. -/
  | closing
deriving DecidableEq

structure Worker where
  url : Bytes := []
  state : WorkerState := .raw
  queue : List Ticket := []
  point : SwitchPoint := .spawned
  retries : Nat := 0
deriving DecidableEq

namespace Worker

def idle (worker : Worker) : Bool :=
  worker.state = .ready || worker.state = .idle

def queueSize (worker : Worker) : Nat :=
  worker.queue.length

def hasMoreJobs (worker : Worker) : Bool :=
  0 < worker.queueSize

/-- The loop of `doWork` from the test for more jobs behind a job: the next job
that is attempted at all, or idling. -/
def continueWork (worker : Worker) : List Ticket → Worker
  | [] => { worker with queue := [], state := .idle, point := .idling }
  | job :: queue =>
      if worker.retries ≤ maxRetries then
        { worker with queue := queue, point := .running job }
      else continueWork worker queue

/-- The coroutine resumed where it waits, with the job it completed. The worker
is gone when `OnDoneSentry` has run. -/
def resume (worker : Worker) (fails : Bool) : Option Worker × Option Ticket :=
  match worker.point, fails with
  | .spawned, _ => (some { worker with state := .working, point := .connecting }, none)
  | .connecting, true => (none, none)
  | .connecting, false =>
      if worker.hasMoreJobs then (some (worker.continueWork worker.queue), none)
      else (some { worker with point := .closing }, none)
  | .running job, true => (some { worker with point := .reconnecting job }, none)
  | .running job, false => (some (worker.continueWork worker.queue), some job)
  | .reconnecting _job, true => (some { worker with point := .closing }, none)
  | .reconnecting job, false =>
      let retried := { worker with retries := worker.retries + 1 }
      if retried.retries ≤ maxRetries then
        (some { retried with point := .running job }, none)
      else (some (retried.continueWork retried.queue), none)
  | .idling, _ =>
      if worker.hasMoreJobs then
        (some ({ worker with state := .working }.continueWork worker.queue), none)
      else (some { worker with state := .dead, point := .closing }, none)
  | .closing, _ => (none, none)

end Worker

/-! ### The manager -/

structure Pool where
  /-- The list of workers of every URL. -/
  workers : Bytes → List Nat := fun _ => []
  worker : Nat → Worker := fun _ => {}
  nextWorker : Nat := 0
  nextJob : Nat := 0
  /-- The jobs added and the jobs completed, in order. -/
  added : List Ticket := []
  executed : List Ticket := []

def maxWorkersPerURL : Nat := 3

/-- The loop of `getWorker` over the rest of the list. -/
def leastBusy (worker : Nat → Worker) (best : Nat) : List Nat → Nat
  | [] => best
  | result :: rest =>
      if (worker result).idle then result
      else if (worker result).queueSize < (worker best).queueSize then
        leastBusy worker result rest
      else leastBusy worker best rest

/-- The number that `getWorker` returns. -/
def Pool.picked (pool : Pool) (url : Bytes) : Nat :=
  if (pool.workers url).length < maxWorkersPerURL then pool.nextWorker
  else leastBusy pool.worker ((pool.workers url).headD 0) (pool.workers url)

/-- `getWorker`, which launches a worker while the list is not full. -/
def Pool.getWorker (pool : Pool) (url : Bytes) : Pool :=
  if (pool.workers url).length < maxWorkersPerURL then
    { pool with
      workers := Function.update pool.workers url (pool.nextWorker :: pool.workers url)
      worker := Function.update pool.worker pool.nextWorker { url := url, state := .ready }
      nextWorker := pool.nextWorker + 1 }
  else pool

def Pool.addJob (pool : Pool) (number : Nat) (job : Job) : Pool :=
  let ticket : Ticket := ⟨pool.nextJob, job, number⟩
  let worker := pool.worker number
  { pool with
    worker := Function.update pool.worker number { worker with queue := worker.queue ++ [ticket] }
    nextJob := pool.nextJob + 1
    added := pool.added ++ [ticket] }

inductive PoolLabel where
  /-- `getWorker`, and `addJob` on the worker it returns, with no switch point
  between them. -/
  | request (url : Bytes) (job : Option Job)
  /-- A listed worker's coroutine resumed, with the operation it waits for
  having failed or not. -/
  | resume (url : Bytes) (number : Nat) (fails : Bool)
deriving DecidableEq

def Pool.step (pool : Pool) : PoolLabel → Option Pool
  | .request url none => some (pool.getWorker url)
  | .request url (some job) => some ((pool.getWorker url).addJob (pool.picked url) job)
  | .resume url number fails =>
      if number ∈ pool.workers url then
        let outcome := (pool.worker number).resume fails
        let executed := pool.executed ++ outcome.2.toList
        match outcome.1 with
        | some resumed =>
            some { pool with
              worker := Function.update pool.worker number resumed
              executed := executed }
        | none =>
            some { pool with
              workers := Function.update pool.workers url ((pool.workers url).erase number)
              executed := executed }
      else none

end Cdnalizerd
