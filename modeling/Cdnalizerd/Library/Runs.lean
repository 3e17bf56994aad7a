/-
Runs of a labelled system.

A label carries everything that is not decided by the state, so that a step is
a partial function.  A run may be restricted to the labels a condition allows
in the state before the step.
-/

import Mathlib.Logic.Relation

namespace Library.Runs

variable {State Label : Type} (step : State → Label → Option State)

def Next (allowed : State → Label → Prop) (before after : State) : Prop :=
  ∃ label, allowed before label ∧ step before label = some after

abbrev Run (allowed : State → Label → Prop) : State → State → Prop :=
  Relation.ReflTransGen (Next step allowed)

def replay (state : State) (labels : List Label) : Option State :=
  labels.foldlM step state

variable {step} {allowed : State → Label → Prop} {start final : State}

theorem invariant_of_run {holds : State → Prop} (run : Run step allowed start final)
    (initially : holds start)
    (kept : ∀ before label after, holds before → allowed before label →
      step before label = some after → holds after) : holds final := by
  induction run with
  | refl => exact initially
  | tail _earlier next ih =>
      obtain ⟨label, permitted, stepped⟩ := next
      exact kept _ label _ ih permitted stepped

theorem run_of_replay {labels : List Label} (replayed : replay step start labels = some final) :
    Run step (fun _ label => label ∈ labels) start final := by
  induction labels generalizing start with
  | nil =>
      obtain rfl := Option.some.inj replayed
      exact Relation.ReflTransGen.refl
  | cons label rest ih =>
      obtain ⟨middle, stepped, replayedRest⟩ := Option.bind_eq_some_iff.mp replayed
      apply Relation.ReflTransGen.head ⟨label, List.mem_cons_self, stepped⟩
      refine Relation.ReflTransGen.mono ?_ _ _ (ih replayedRest)
      intro before after next
      obtain ⟨other, member, otherStepped⟩ := next
      exact ⟨other, List.mem_cons_of_mem label member, otherStepped⟩

theorem run_of_replay_get {labels : List Label}
    (replays : (replay step start labels).isSome = true)
    (permitted : ∀ label ∈ labels, ∀ state, allowed state label) :
    Run step allowed start ((replay step start labels).get replays) := by
  have run := run_of_replay (Option.some_get replays).symm
  refine Relation.ReflTransGen.mono ?_ _ _ run
  intro before after next
  obtain ⟨label, member, stepped⟩ := next
  exact ⟨label, permitted label member before, stepped⟩

/-! ### What every step of a replay does -/

variable (step)

/-- A fact about every step that the labels make, up to the first that cannot be
taken. -/
def Along (holds : State → Label → State → Prop) : State → List Label → Prop
  | _state, [] => True
  | state, label :: rest =>
      match step state label with
      | none => True
      | some next => holds state label next ∧ Along holds next rest

variable {step}

/-- A replay all of whose steps are allowed is a run. -/
theorem run_of_along {labels : List Label} (replayed : replay step start labels = some final)
    (along : Along step (fun state label _next => allowed state label) start labels) :
    Run step allowed start final := by
  induction labels generalizing start with
  | nil =>
      obtain rfl := Option.some.inj replayed
      exact Relation.ReflTransGen.refl
  | cons label rest ih =>
      obtain ⟨middle, stepped, replayedRest⟩ := Option.bind_eq_some_iff.mp replayed
      unfold Along at along
      rw [stepped] at along
      exact Relation.ReflTransGen.head ⟨label, along.1, stepped⟩ (ih replayedRest along.2)

theorem along_of_forall {holds : State → Label → State → Prop} {labels : List Label}
    (always : ∀ label ∈ labels, ∀ state next, holds state label next) (state : State) :
    Along step holds state labels := by
  induction labels generalizing state with
  | nil => trivial
  | cons label rest ih =>
      unfold Along
      cases step state label with
      | none => trivial
      | some next =>
          exact ⟨always label List.mem_cons_self state next,
            ih (fun other member => always other (List.mem_cons_of_mem label member)) next⟩

/-- Two facts that agree on the steps from states with an invariant, which the
second keeps, agree along every replay. -/
theorem along_iff_of_kept (invariant : State → Prop)
    {holds other : State → Label → State → Prop}
    (kept : ∀ state label next, invariant state → step state label = some next →
      other state label next → invariant next)
    (same : ∀ state label next, invariant state → step state label = some next →
      (holds state label next ↔ other state label next))
    {state : State} (initially : invariant state) (labels : List Label) :
    Along step holds state labels ↔ Along step other state labels := by
  induction labels generalizing state with
  | nil => exact Iff.rfl
  | cons label rest ih =>
      unfold Along
      cases stepped : step state label with
      | none => exact Iff.rfl
      | some next =>
          have here := same state label next initially stepped
          constructor
          · intro first
            have second := here.mp first.1
            exact ⟨second, (ih (kept state label next initially stepped second)).mp first.2⟩
          · intro second
            have after := kept state label next initially stepped second.1
            exact ⟨here.mpr second.1, (ih after).mpr second.2⟩

/-- Where every step keeps the invariant, the facts need not. -/
theorem along_congr (invariant : State → Prop) {holds other : State → Label → State → Prop}
    (kept : ∀ state label next, invariant state → step state label = some next →
      invariant next)
    (same : ∀ state label next, invariant state → step state label = some next →
      (holds state label next ↔ other state label next))
    {state : State} (initially : invariant state) (labels : List Label) :
    Along step holds state labels ↔ Along step other state labels := by
  apply along_iff_of_kept invariant _ same initially labels
  intro state label next before stepped _other
  exact kept state label next before stepped

/-- The states of a replay are good exactly if its steps are allowed, where an
allowed step keeps an invariant and leads to a good state, and no other does. -/
theorem along_good_iff (invariant : State → Prop) {good : State → Prop}
    (kept : ∀ state label next, invariant state → step state label = some next →
      allowed state label → invariant next)
    (same : ∀ state label next, invariant state → step state label = some next →
      (good next ↔ allowed state label))
    {state : State} (initially : invariant state) (labels : List Label) :
    Along step (fun _state _label next => good next) state labels ↔
      Along step (fun state label _next => allowed state label) state labels :=
  along_iff_of_kept invariant kept same initially labels

end Library.Runs
