/-
The jobs that were added to the workers and are not completed yet.

They are kept in the order they were added in.  A worker takes its own from the
front, so a completed job leaves the list from anywhere, but from before every
other job of its worker.
-/

import Cdnalizerd.WorkerCompletions

namespace Cdnalizerd

open Library

namespace Pool

def outstanding (pool : Pool) : List Ticket :=
  pool.added.filter fun ticket => ticket ∉ pool.executed

/-- At no time do two workers have jobs for one object. -/
def OneWorkerEach (pool : Pool) : Prop :=
  ∀ ticket ∈ pool.outstanding, ∀ other ∈ pool.outstanding,
    ticket.job.destination.path = other.job.destination.path → ticket.worker = other.worker

instance (pool : Pool) : Decidable pool.OneWorkerEach :=
  inferInstanceAs (Decidable (∀ ticket ∈ pool.outstanding, ∀ other ∈ pool.outstanding,
    ticket.job.destination.path = other.job.destination.path → ticket.worker = other.worker))

variable {pool : Pool} {url : Bytes} {number : Nat}

theorem outstanding_getWorker (pool : Pool) (url : Bytes) :
    (pool.getWorker url).outstanding = pool.outstanding := by
  unfold outstanding
  rw [getWorker_added, getWorker_executed]

theorem InOrder.added_nodup (inOrder : pool.InOrder) : pool.added.Nodup := by
  apply inOrder.ascending.imp
  intro left right earlier same
  rw [same] at earlier
  exact Nat.lt_irrefl _ earlier

theorem InOrder.outstanding_nodup (inOrder : pool.InOrder) : pool.outstanding.Nodup :=
  inOrder.added_nodup.filter _

/-- A new job has a new id, so it was not completed yet. -/
theorem InOrder.outstanding_addJob (inOrder : pool.InOrder) (number : Nat) (job : Job) :
    (pool.addJob number job).outstanding = pool.outstanding ++ [⟨pool.nextJob, job, number⟩] := by
  have uncompleted : (⟨pool.nextJob, job, number⟩ : Ticket) ∉ pool.executed := by
    intro member
    exact Nat.lt_irrefl _ (inOrder.id_lt _ (inOrder.added_of_executed member))
  unfold outstanding Pool.addJob
  dsimp only
  rw [List.filter_append]
  exact congrArg _ (List.filter_cons_of_pos (decide_eq_true uncompleted))

/-- What is outstanding of a listed worker is what it has pending. -/
theorem InOrder.ticketsOf_outstanding (inOrder : pool.InOrder)
    (listed : number ∈ pool.workers url) :
    ticketsOf number pool.outstanding = (pool.worker number).pending := by
  have flow := inOrder.flow url number listed
  have distinct : (ticketsOf number pool.executed ++ (pool.worker number).pending).Nodup := by
    rw [flow]
    exact inOrder.added_nodup.filter _
  have apart := (List.nodup_append.mp distinct).2.2
  have own : ∀ ticket ∈ (pool.worker number).pending, ticket.worker = number := by
    intro ticket member
    have among : ticket ∈ ticketsOf number pool.added := by
      rw [← flow]
      exact List.mem_append_right _ member
    exact (mem_ticketsOf.mp among).2
  calc ticketsOf number pool.outstanding
      = (ticketsOf number pool.added).filter fun ticket => ticket ∉ pool.executed :=
        List.filter_comm _ _ _
    _ = (ticketsOf number pool.executed ++ (pool.worker number).pending).filter
          fun ticket => ticket ∉ pool.executed := by rw [flow]
    _ = [] ++ (pool.worker number).pending := by
        rw [List.filter_append]
        congr 1
        · apply List.filter_eq_nil_iff.mpr
          intro ticket member uncompleted
          exact of_decide_eq_true uncompleted (mem_ticketsOf.mp member).1
        · apply List.filter_eq_self.mpr
          intro ticket member
          apply decide_eq_true
          intro completed
          exact apart ticket (mem_ticketsOf.mpr ⟨completed, own ticket member⟩) ticket member rfl
    _ = (pool.worker number).pending := List.nil_append _

/-- A completed job leaves the list from before every other job of its worker. -/
theorem InOrder.outstanding_split (inOrder : pool.InOrder) (listed : number ∈ pool.workers url)
    {ticket : Ticket} {rest : List Ticket}
    (first : (pool.worker number).pending = ticket :: rest) :
    ∃ before after, pool.outstanding = before ++ ticket :: after ∧
      (∀ other ∈ before, other.worker ≠ number) ∧ ticket.worker = number ∧
      pool.added.filter (fun other => other ∉ pool.executed ++ [ticket]) = before ++ after := by
  have own := inOrder.ticketsOf_outstanding listed
  rw [first] at own
  have member : ticket ∈ ticketsOf number pool.outstanding := by
    rw [own]
    exact List.mem_cons_self
  obtain ⟨isOutstanding, ofWorker⟩ := mem_ticketsOf.mp member
  obtain ⟨before, after, split⟩ := List.append_of_mem isOutstanding
  have distinct := inOrder.outstanding_nodup
  rw [split] at distinct own
  have notBefore : ticket ∉ before := fun inFront =>
    (List.nodup_append.mp distinct).2.2 ticket inFront ticket List.mem_cons_self rfl
  have notAfter : ticket ∉ after :=
    (List.nodup_cons.mp (List.nodup_append.mp distinct).2.1).1
  refine ⟨before, after, split, ?_, ofWorker, ?_⟩
  · intro other inFront sameWorker
    have among : other ∈ ticketsOf number before := mem_ticketsOf.mpr ⟨inFront, sameWorker⟩
    rw [ticketsOf_append] at own
    cases earlier : ticketsOf number before with
    | nil =>
        rw [earlier] at among
        cases among
    | cons head tail =>
        rw [earlier, List.cons_append] at own
        have same : head = ticket := (List.cons.inj own).1
        have inside : head ∈ ticketsOf number before := by
          rw [earlier]
          exact List.mem_cons_self
        exact notBefore (same ▸ (mem_ticketsOf.mp inside).1)
  · have shrunk : pool.added.filter (fun other => other ∉ pool.executed ++ [ticket]) =
        pool.outstanding.filter fun other => other ≠ ticket := by
      unfold outstanding
      rw [List.filter_filter]
      apply List.filter_congr
      intro other _member
      simp only [List.mem_append, List.mem_singleton, not_or, ne_eq, Bool.decide_and]
      exact Bool.and_comm _ _
    rw [shrunk, split, List.filter_append, List.filter_cons_of_neg (by simp)]
    congr 1
    · apply List.filter_eq_self.mpr
      intro other inFront
      exact decide_eq_true (fun same => notBefore (same ▸ inFront))
    · apply List.filter_eq_self.mpr
      intro other behind
      exact decide_eq_true (fun same => notAfter (same ▸ behind))

/-! ### A worker resumed -/

variable {next : Pool} {fails : Bool}

theorem outstanding_of_idle (stepped : pool.step (.resume url number fails) = some next)
    (idle : ((pool.worker number).resume fails).2 = none) :
    next.outstanding = pool.outstanding := by
  obtain ⟨added, executed⟩ := recorded_of_resume stepped
  unfold outstanding
  rw [added, executed, idle, Option.toList_none, List.append_nil]

/-- A job is the first of its worker's when it is completed. -/
theorem InOrder.first_of_completed (inOrder : pool.InOrder)
    (stepped : pool.step (.resume url number false) = some next) {ticket : Ticket}
    (done : ((pool.worker number).resume false).2 = some ticket) :
    ∃ rest, (pool.worker number).pending = ticket :: rest := by
  obtain ⟨listed, ⟨after, outcome, _next⟩ | ⟨gone, _next⟩⟩ := step_resume_cases stepped
  · have untroubled := inOrder.untroubled url number listed
    have taken := (Worker.calmlyResumed_of_resume untroubled outcome).pending_eq untroubled
    rw [done] at taken
    exact ⟨after.pending, taken.symm⟩
  · rw [Worker.done_of_gone gone] at done
    cases done

theorem InOrder.outstanding_of_completed (inOrder : pool.InOrder)
    (stepped : pool.step (.resume url number false) = some next) {ticket : Ticket}
    (done : ((pool.worker number).resume false).2 = some ticket) :
    ∃ before after, pool.outstanding = before ++ ticket :: after ∧
      next.outstanding = before ++ after ∧ ∀ other ∈ before, other.worker ≠ ticket.worker := by
  obtain ⟨rest, first⟩ := inOrder.first_of_completed stepped done
  obtain ⟨before, after, split, others, own, shrunk⟩ :=
    inOrder.outstanding_split (step_resume_cases stepped).1 first
  refine ⟨before, after, split, ?_, own ▸ others⟩
  obtain ⟨added, executed⟩ := recorded_of_resume stepped
  unfold outstanding
  rw [added, executed, done]
  exact shrunk

end Pool

end Cdnalizerd
