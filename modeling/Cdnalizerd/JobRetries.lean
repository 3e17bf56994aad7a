/-
The retry budget over all jobs of a worker.

`retries` counts for the whole of `doWork` and is never reset, so what earlier
jobs failed is missing from the budget of later ones.  A job gets its own
attempts exactly if nothing failed before it, or if its failures still fit.
-/

import Cdnalizerd.JobAttempts
import Mathlib.Algebra.Ring.Nat

namespace Cdnalizerd

open Library

/-! ### The job loop of `doWork` -/

/-- What each dequeued job was seen to do, from a count of retries on.  Waiting
for more jobs does not touch the count, and a reconnect that throws ends the
loop. -/
def workJobs (reconnect : Nat → Except Thrown Unit) (retries : Nat) :
    List (Nat → Attempt Unit) → List (List WorkEvent)
  | [] => []
  | attempts :: rest =>
      let worked := retryLoop (fun index => attempts (index - retries)) reconnect retries
      match worked.result with
      | .ok spent => worked.trace :: workJobs reconnect spent rest
      | .error _thrown => [worked.trace]

/-- The budget every job is meant to have: attempted, again while it fails, and
given up only after `maxRetries + 1` failures of its own. -/
structure FairlyTried (attempts : Nat → Attempt Unit) (log : List WorkEvent) : Prop where
  attempted : 0 < log.length
  bounded : log.length ≤ maxRetries + 1
  retried : ∀ index, index + 1 < log.length → (attempts index).result ≠ .ok ()
  settled : (attempts (log.length - 1)).result = .ok () ∨ log.length = maxRetries + 1

/-! ### Failures in a row -/

def Attempt.fails (attempt : Attempt Unit) : Bool :=
  match attempt.result with
  | .ok _ => false
  | .error _ => true

theorem Attempt.fails_iff (attempt : Attempt Unit) :
    Attempt.fails attempt = true ↔ attempt.result ≠ .ok () := by
  unfold Attempt.fails
  cases attempt.result with
  | ok _unit => simp
  | error thrown => simp

/-- The failures before the first success, as far as a budget reaches. -/
def failuresWithin (attempts : Nat → Attempt Unit) : Nat → Nat
  | 0 => 0
  | budget + 1 =>
      if Attempt.fails (attempts 0) then
        failuresWithin (fun index => attempts (index + 1)) budget + 1
      else 0

def ownFailures (attempts : Nat → Attempt Unit) : Nat :=
  failuresWithin attempts (maxRetries + 1)

theorem failuresWithin_le (attempts : Nat → Attempt Unit) (budget : Nat) :
    failuresWithin attempts budget ≤ budget := by
  induction budget generalizing attempts with
  | zero => exact Nat.le_refl 0
  | succ budget ih =>
      unfold failuresWithin
      split
      · have inner := ih fun index => attempts (index + 1)
        omega
      · omega

theorem fails_of_lt {attempts : Nat → Attempt Unit} {budget index : Nat}
    (within : index < failuresWithin attempts budget) :
    Attempt.fails (attempts index) = true := by
  induction budget generalizing attempts index with
  | zero => exact absurd within (Nat.not_lt_zero _)
  | succ budget ih =>
      unfold failuresWithin at within
      split at within
      · rename_i first
        cases index with
        | zero => exact first
        | succ index =>
            have inner : index < failuresWithin (fun index => attempts (index + 1)) budget := by
              omega
            exact @ih (fun index => attempts (index + 1)) index inner
      · omega

theorem succeeds_of_lt {attempts : Nat → Attempt Unit} {budget : Nat}
    (within : failuresWithin attempts budget < budget) :
    Attempt.fails (attempts (failuresWithin attempts budget)) = false := by
  induction budget generalizing attempts with
  | zero => exact absurd within (Nat.not_lt_zero _)
  | succ budget ih =>
      unfold failuresWithin at within ⊢
      split at within
      · rename_i first
        rw [if_pos first]
        exact @ih (fun index => attempts (index + 1)) (by omega)
      · rename_i first
        rw [if_neg first]
        exact eq_false_of_ne_true first

theorem failuresWithin_eq_min (attempts : Nat → Attempt Unit) {budget larger : Nat}
    (smaller : budget ≤ larger) :
    failuresWithin attempts budget = min budget (failuresWithin attempts larger) := by
  induction budget generalizing attempts larger with
  | zero => exact (Nat.zero_min _).symm
  | succ budget ih =>
      obtain ⟨larger, rfl⟩ : ∃ less, larger = less + 1 := ⟨larger - 1, by omega⟩
      unfold failuresWithin
      split
      · rw [ih (fun index => attempts (index + 1)) (by omega : budget ≤ larger)]
        omega
      · omega

/-! ### One job -/

section Loop

variable {attempt : Nat → Attempt Unit} {reconnect : Nat → Except Thrown Unit}

/-- The loop spends one event on every attempt, and one retry on every
failure. -/
theorem retryLoop_spec (reconnects : ∀ index, reconnect index = .ok ())
    {retries budget : Nat} (whole : retries + budget = maxRetries + 1) :
    (retryLoop attempt reconnect retries).result =
        .ok (retries + failuresWithin (fun index => attempt (retries + index)) budget) ∧
      (retryLoop attempt reconnect retries).trace.length =
        min budget (failuresWithin (fun index => attempt (retries + index)) budget + 1) := by
  induction budget generalizing retries with
  | zero =>
      unfold retryLoop
      rw [if_neg (by omega)]
      exact ⟨rfl, rfl⟩
  | succ budget ih =>
      have within : retries ≤ maxRetries := by omega
      unfold failuresWithin
      cases outcome : (attempt retries).result with
      | ok _unit =>
          have first : Attempt.fails (attempt (retries + 0)) = false := by
            unfold Attempt.fails
            rw [Nat.add_zero, outcome]
          rw [retryLoop_of_ok within outcome, Traced.emit_bind, first]
          refine ⟨rfl, ?_⟩
          simp only [Traced.pure_trace, List.length_singleton, Bool.false_eq_true, if_false]
          omega
      | error thrown =>
          have first : Attempt.fails (attempt (retries + 0)) = true := by
            unfold Attempt.fails
            rw [Nat.add_zero, outcome]
          have shifted : (fun index => attempt (retries + (index + 1))) =
              fun index => attempt (retries + 1 + index) := by
            funext index
            congr 1
            omega
          obtain ⟨result, length⟩ := @ih (retries + 1) (by omega)
          rw [retryLoop_of_error within outcome, Traced.emit_bind, reconnects retries,
            Traced.ask_ok_bind, first, if_pos rfl, shifted]
          refine ⟨?_, ?_⟩
          · rw [result]
            congr 1
            omega
          · simp only [List.length_cons, length]
            omega

variable {attempts : Nat → Attempt Unit} {retries : Nat}

theorem fairlyTried_iff {log : List WorkEvent} (bounded : retries ≤ maxRetries + 1)
    (length : log.length = min (maxRetries + 1 - retries)
      (failuresWithin attempts (maxRetries + 1 - retries) + 1)) :
    FairlyTried attempts log ↔ retries = 0 ∨ retries + ownFailures attempts ≤ maxRetries := by
  have cut := failuresWithin_eq_min attempts (Nat.sub_le (maxRetries + 1) retries)
  have most : ownFailures attempts ≤ maxRetries + 1 := failuresWithin_le attempts _
  rw [cut] at length
  change log.length = min _ (min _ (ownFailures attempts) + 1) at length
  constructor
  · intro fair
    by_contra unfair
    obtain ⟨spent, exceeded⟩ := not_or.mp unfair
    have exhausted : log.length = maxRetries + 1 - retries := by omega
    have attempted := fair.attempted
    rcases fair.settled with returned | full
    · have within : log.length - 1 < failuresWithin attempts (maxRetries + 1) := by
        change _ < ownFailures attempts
        omega
      exact (Attempt.fails_iff _).mp (fails_of_lt within) returned
    · omega
  · intro fits
    constructor
    · omega
    · omega
    · intro index more
      have within : index < failuresWithin attempts (maxRetries + 1) := by
        change index < ownFailures attempts
        omega
      exact (Attempt.fails_iff _).mp (fails_of_lt within)
    · by_cases hopeless : ownFailures attempts = maxRetries + 1
      · right
        omega
      · left
        have last : log.length - 1 = ownFailures attempts := by omega
        have succeeds : Attempt.fails (attempts (ownFailures attempts)) = false := by
          apply succeeds_of_lt
          change ownFailures attempts < _
          omega
        rw [last]
        by_contra failed
        have fails := (Attempt.fails_iff _).mpr failed
        rw [succeeds] at fails
        cases fails

end Loop

/-! ### All jobs of a run -/

def FitsBudget (earlier : Nat) (attempts : Nat → Attempt Unit) : Prop :=
  earlier = 0 ∨ earlier + ownFailures attempts ≤ maxRetries

def AllFit (earlier : Nat) : List (Nat → Attempt Unit) → Prop
  | [] => True
  | attempts :: rest =>
      FitsBudget earlier attempts ∧ AllFit (earlier + ownFailures attempts) rest

theorem allFit_iff (earlier : Nat) (jobs : List (Nat → Attempt Unit)) :
    AllFit earlier jobs ↔ ∀ before attempts after, jobs = before ++ attempts :: after →
      FitsBudget (earlier + (before.map ownFailures).sum) attempts := by
  induction jobs generalizing earlier with
  | nil =>
      refine iff_of_true trivial ?_
      intro before attempts after split
      cases before <;> cases split
  | cons attempts rest ih =>
      unfold AllFit
      rw [ih]
      constructor
      · rintro ⟨here, later⟩ before other after split
        cases before with
        | nil =>
            obtain ⟨rfl, -⟩ := List.cons.inj split
            exact here
        | cons first before =>
            obtain ⟨rfl, inner⟩ := List.cons.inj split
            have fits := later before other after inner
            rwa [Nat.add_assoc] at fits
      · intro all
        constructor
        · exact all [] attempts rest rfl
        · intro before other after split
          have fits := all (attempts :: before) other after (by rw [split]; rfl)
          rw [List.map_cons, List.sum_cons] at fits
          rwa [Nat.add_assoc]

section Run

variable {reconnect : Nat → Except Thrown Unit}

theorem fairly_tried_from_iff (reconnects : ∀ index, reconnect index = .ok ())
    {retries : Nat} (bounded : retries ≤ maxRetries + 1) (jobs : List (Nat → Attempt Unit)) :
    List.Forall₂ FairlyTried jobs (workJobs reconnect retries jobs) ↔ AllFit retries jobs := by
  induction jobs generalizing retries with
  | nil => exact iff_of_true List.Forall₂.nil trivial
  | cons attempts rest ih =>
      have whole : retries + (maxRetries + 1 - retries) = maxRetries + 1 :=
        Nat.add_sub_cancel' bounded
      obtain ⟨result, length⟩ := @retryLoop_spec (fun index => attempts (index - retries))
        reconnect reconnects _ _ whole
      have own : (fun index => (fun index => attempts (index - retries)) (retries + index)) =
          attempts := by
        funext index
        simp only [Nat.add_sub_cancel_left]
      rw [own] at result length
      have here := fairlyTried_iff bounded length
      have cut := failuresWithin_eq_min attempts (Nat.sub_le (maxRetries + 1) retries)
      have spent := failuresWithin_le attempts (maxRetries + 1 - retries)
      unfold workJobs AllFit
      simp only [result]
      rw [List.forall₂_cons, here, ih (by omega)]
      apply and_congr_right
      intro fits
      have same : failuresWithin attempts (maxRetries + 1 - retries) = ownFailures attempts := by
        have most : ownFailures attempts ≤ maxRetries + 1 := failuresWithin_le attempts _
        rw [cut]
        change min _ (ownFailures attempts) = _
        omega
      rw [same]

/-- With every reconnect succeeding, each dequeued job gets the attempts it is
meant to have, exactly if before each job nothing failed or what failed leaves
room for its own failures. -/
theorem fairly_tried_iff (reconnects : ∀ index, reconnect index = .ok ())
    (jobs : List (Nat → Attempt Unit)) :
    List.Forall₂ FairlyTried jobs (workJobs reconnect 0 jobs) ↔
      ∀ before attempts after, jobs = before ++ attempts :: after →
        (before.map ownFailures).sum = 0 ∨
          (before.map ownFailures).sum + ownFailures attempts ≤ maxRetries := by
  rw [fairly_tried_from_iff reconnects (Nat.zero_le _), allFit_iff]
  simp only [Nat.zero_add]
  rfl

end Run

def failingAttempts (_index : Nat) : Attempt Unit :=
  Traced.fail Thrown.enabled

def calmAttempts (_index : Nat) : Attempt Unit :=
  pure ()

def failingFirst (failures index : Nat) : Attempt Unit :=
  if index < failures then Traced.fail Thrown.enabled else pure ()

/-- Two jobs whose failures make up the whole budget. -/
theorem fairly_tried_iff_retried :
    workJobs (fun _ => .ok ()) 0 [failingFirst 1, failingFirst 2] =
        [[.reconnecting 0, .finished 1], [.reconnecting 1, .reconnecting 2, .finished 3]] ∧
      List.Forall₂ FairlyTried [failingFirst 1, failingFirst 2]
        (workJobs (fun _ => .ok ()) 0 [failingFirst 1, failingFirst 2]) := by
  refine ⟨by decide, ?_⟩
  apply (fairly_tried_iff (fun _ => rfl) [failingFirst 1, failingFirst 2]).mpr
  intro before attempts after split
  cases before with
  | nil => exact Or.inl rfl
  | cons first rest =>
      obtain ⟨rfl, behind⟩ := List.cons.inj split
      cases rest with
      | nil =>
          obtain ⟨rfl, _nothing⟩ := List.cons.inj behind
          exact Or.inr (by decide)
      | cons second others =>
          exact absurd (List.cons.inj behind).2.symm
            (List.append_ne_nil_of_right_ne_nil others (List.cons_ne_nil attempts after))

/-- A job behind one that fails for good is dropped without an attempt. -/
theorem dropped_behind_failing :
    workJobs (fun _ => .ok ()) 0 [failingAttempts, calmAttempts] =
        [[.reconnecting 0, .reconnecting 1, .reconnecting 2, .reconnecting 3], []] ∧
      ¬ List.Forall₂ FairlyTried [failingAttempts, calmAttempts]
        (workJobs (fun _ => .ok ()) 0 [failingAttempts, calmAttempts]) := by
  have logs : workJobs (fun _ => .ok ()) 0 [failingAttempts, calmAttempts] =
      [[.reconnecting 0, .reconnecting 1, .reconnecting 2, .reconnecting 3], []] := by
    decide
  refine ⟨logs, ?_⟩
  rw [logs]
  intro fair
  cases fair with
  | cons first rest =>
      cases rest with
      | cons second last => exact absurd second.attempted (by decide)

end Cdnalizerd
