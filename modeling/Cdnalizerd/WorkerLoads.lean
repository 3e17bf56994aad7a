/-
How the manager shares the load.

`getWorker` launches a worker whenever the list of the URL has room, and in a
full list it takes the first idle worker without a look at its queue.  Only a
search that meets no idle worker compares the queues.
-/

import Cdnalizerd.WorkerFailures

namespace Cdnalizerd

open Library

/-! ### The search through a full list -/

def firstIdle (worker : Nat → Worker) (listed : List Nat) : Option Nat :=
  listed.find? fun number => (worker number).idle

section Search

variable {worker : Nat → Worker}

theorem firstIdle_of_idle {result : Nat} (idle : (worker result).idle = true)
    (rest : List Nat) : firstIdle worker (result :: rest) = some result :=
  List.find?_cons_of_pos idle

theorem firstIdle_of_busy {result : Nat} (busy : (worker result).idle ≠ true)
    (rest : List Nat) : firstIdle worker (result :: rest) = firstIdle worker rest :=
  List.find?_cons_of_neg busy

theorem leastBusy_of_firstIdle {best number : Nat} {rest : List Nat}
    (found : firstIdle worker rest = some number) : leastBusy worker best rest = number := by
  induction rest generalizing best with
  | nil => cases found
  | cons result rest ih =>
      unfold leastBusy
      by_cases idle : (worker result).idle = true
      · rw [firstIdle_of_idle idle] at found
        rw [if_pos idle]
        exact Option.some.inj found
      · rw [firstIdle_of_busy idle] at found
        rw [if_neg idle]
        split
        · exact ih found
        · exact ih found

/-- A search that meets no idle worker ends at a shortest queue. -/
theorem leastBusy_queueSize_le {best : Nat} {rest : List Nat}
    (noneIdle : ∀ number ∈ rest, (worker number).idle = false) :
    (worker (leastBusy worker best rest)).queueSize ≤ (worker best).queueSize ∧
      ∀ number ∈ rest,
        (worker (leastBusy worker best rest)).queueSize ≤ (worker number).queueSize := by
  induction rest generalizing best with
  | nil => exact ⟨Nat.le_refl _, fun number member => absurd member List.not_mem_nil⟩
  | cons result rest ih =>
      have busy := noneIdle result List.mem_cons_self
      have restBusy (number : Nat) (member : number ∈ rest) : (worker number).idle = false :=
        noneIdle number (List.mem_cons_of_mem result member)
      unfold leastBusy
      rw [busy, if_neg Bool.false_ne_true]
      split
      · rename_i shorter
        obtain ⟨bound, bounds⟩ := @ih result restBusy
        refine ⟨by omega, ?_⟩
        intro number member
        rcases List.mem_cons.mp member with rfl | later
        · exact bound
        · exact bounds number later
      · rename_i notShorter
        obtain ⟨bound, bounds⟩ := @ih best restBusy
        refine ⟨bound, ?_⟩
        intro number member
        rcases List.mem_cons.mp member with rfl | later
        · omega
        · exact bounds number later

end Search

/-! ### What a request is served with -/

def Pool.NoneIdle (pool : Pool) (url : Bytes) : Prop :=
  ∀ number ∈ pool.workers url, (pool.worker number).idle = false

def Pool.LeastLoaded (pool : Pool) (url : Bytes) (number : Nat) : Prop :=
  ∀ other ∈ pool.workers url, ¬ (pool.worker other).queueSize < (pool.worker number).queueSize

/-- A worker is launched only when none is idle, and one that is there already is
returned only with the least load. -/
structure Pool.ServesWell (pool : Pool) (url : Bytes) : Prop where
  launched : pool.picked url ∉ pool.workers url → pool.NoneIdle url
  returned : pool.picked url ∈ pool.workers url → pool.LeastLoaded url (pool.picked url)

/-- None is idle while the list has room, and the first idle worker of a full
list has the least load. -/
def Pool.IdleWorkersFree (pool : Pool) (url : Bytes) : Prop :=
  if (pool.workers url).length < maxWorkersPerURL then pool.NoneIdle url
  else ∀ number, firstIdle pool.worker (pool.workers url) = some number →
    pool.LeastLoaded url number

theorem Pool.picked_mem_iff {pool : Pool} (owns : pool.OwnTickets) (url : Bytes) :
    pool.picked url ∈ pool.workers url ↔
      ¬ (pool.workers url).length < maxWorkersPerURL := by
  constructor
  · intro member room
    unfold picked at member
    rw [if_pos room] at member
    exact Nat.lt_irrefl _ (owns.listed_lt url _ member)
  · exact Pool.picked_mem

theorem Pool.leastLoaded_of_noneIdle {pool : Pool} {url : Bytes}
    (full : ¬ (pool.workers url).length < maxWorkersPerURL) (busy : pool.NoneIdle url) :
    pool.LeastLoaded url (pool.picked url) := by
  intro other member
  unfold picked
  rw [if_neg full]
  exact Nat.not_lt.mpr ((leastBusy_queueSize_le busy).2 other member)

theorem Pool.picked_of_firstIdle {pool : Pool} {url : Bytes} {number : Nat}
    (full : ¬ (pool.workers url).length < maxWorkersPerURL)
    (found : firstIdle pool.worker (pool.workers url) = some number) :
    pool.picked url = number := by
  unfold picked
  rw [if_neg full]
  exact leastBusy_of_firstIdle found

theorem Pool.servesWell_iff {pool : Pool} (owns : pool.OwnTickets) (url : Bytes) :
    pool.ServesWell url ↔ pool.IdleWorkersFree url := by
  have listed := pool.picked_mem_iff owns url
  unfold IdleWorkersFree
  split
  · rename_i room
    constructor
    · intro served
      exact served.launched (fun member => listed.mp member room)
    · intro busy
      exact ⟨fun _launched => busy, fun member => absurd room (listed.mp member)⟩
  · rename_i full
    have member := listed.mpr full
    constructor
    · intro served number found
      rw [← Pool.picked_of_firstIdle full found]
      exact served.returned member
    · intro least
      refine ⟨fun launched => absurd member launched, fun _member => ?_⟩
      cases found : firstIdle pool.worker (pool.workers url) with
      | some number =>
          rw [Pool.picked_of_firstIdle full found]
          exact least number found
      | none =>
          apply Pool.leastLoaded_of_noneIdle full
          intro number listed
          exact Bool.eq_false_iff.mpr (List.find?_eq_none.mp found number listed)

/-! ### Whole runs -/

/-- What is said of the URL of a request, before it is made. -/
def PoolLabel.Asks (holds : Bytes → Prop) : PoolLabel → Prop
  | .request url _job => holds url
  | .resume _url _number _fails => True

/-- In every run every request is served well exactly if at every request none
is idle while there is room, and the first idle worker of a full list has the
least load. -/
theorem requests_served_well_iff (labels : List PoolLabel) :
    Runs.Along Pool.step (fun pool label _next => label.Asks pool.ServesWell) {} labels ↔
      Runs.Along Pool.step (fun pool label _next => label.Asks pool.IdleWorkersFree)
        {} labels := by
  apply Runs.along_congr Pool.OwnTickets _ _ Pool.ownTickets_empty labels
  · exact fun _pool _label _next owns stepped => owns.step stepped
  · intro pool label _next owns _stepped
    cases label with
    | request url job => exact pool.servesWell_iff owns url
    | resume url number fails => exact Iff.rfl

/-- One worker sleeps on its idle timer, and a request launches a second one. -/
theorem idle_worker_not_woken :
    let labels : List PoolLabel :=
      [.request (text "u") (some (.remoteDelete sampleBase)), .resume (text "u") 0 false,
        .resume (text "u") 0 false, .resume (text "u") 0 false, .request (text "u") none]
    ¬ Runs.Along Pool.step (fun pool label _next => label.Asks pool.ServesWell) {} labels := by
  intro labels served
  have launched : Pool.ServesWell _ (text "u") := served.2.2.2.2.1
  have busy := launched.launched (by decide) 0 (by decide)
  revert busy
  decide

end Cdnalizerd
