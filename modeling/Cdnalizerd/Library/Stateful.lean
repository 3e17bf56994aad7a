/-
Computations that change a state and may fail, with rules of pre- and
postconditions.

A failure keeps the state it happened in, so a handler goes on from there.  A
triple has two postconditions, one for a return and one for a failure.
-/

namespace Library

def Stateful (state failure value : Type) : Type :=
  state → Except failure value × state

namespace Stateful

variable {state failure α β : Type}

def andThen (first : Stateful state failure α) (next : α → Stateful state failure β) :
    Stateful state failure β :=
  fun current =>
    match first current with
    | (.ok value, later) => next value later
    | (.error reason, later) => (.error reason, later)

instance instMonadStateful : Monad (Stateful state failure) where
  pure value := fun current => (.ok value, current)
  bind := andThen

def fail (reason : failure) : Stateful state failure α :=
  fun current => (.error reason, current)

/-- An answer that may be a failure, with the state unchanged. -/
def ask (answer : Except failure α) : Stateful state failure α :=
  fun current => (answer, current)

def change (update : state → state) : Stateful state failure Unit :=
  fun current => (.ok (), update current)

def catchWith (body : Stateful state failure α) (handler : failure → Stateful state failure α) :
    Stateful state failure α :=
  fun current =>
    match body current with
    | (.ok value, later) => (.ok value, later)
    | (.error reason, later) => handler reason later

theorem bind_of_ok {first : Stateful state failure α} {current later : state} {value : α}
    (returned : first current = (.ok value, later)) (next : α → Stateful state failure β) :
    (first >>= next) current = next value later := by
  change andThen first next current = _
  unfold andThen
  rw [returned]

theorem bind_of_error {first : Stateful state failure α} {current later : state}
    {reason : failure} (failed : first current = (.error reason, later))
    (next : α → Stateful state failure β) :
    (first >>= next) current = (.error reason, later) := by
  change andThen first next current = _
  unfold andThen
  rw [failed]

theorem bind_eq_ok_iff {first : Stateful state failure α} {next : α → Stateful state failure β}
    {current later : state} {value : β} :
    (first >>= next) current = (.ok value, later) ↔
      ∃ given between, first current = (.ok given, between) ∧
        next given between = (.ok value, later) := by
  constructor
  · intro returned
    rcases ran : first current with ⟨answer, between⟩
    cases answer with
    | error reason =>
        rw [bind_of_error ran] at returned
        cases returned
    | ok given =>
        rw [bind_of_ok ran] at returned
        exact ⟨given, between, rfl, returned⟩
  · intro both
    obtain ⟨given, between, ran, returned⟩ := both
    rw [bind_of_ok ran, returned]

theorem ask_bind_eq_ok_iff {answer : Except failure α} {next : α → Stateful state failure β}
    {current later : state} {value : β} :
    (ask answer >>= next) current = (.ok value, later) ↔
      ∃ given, answer = .ok given ∧ next given current = (.ok value, later) := by
  rw [bind_eq_ok_iff]
  constructor
  · intro both
    obtain ⟨given, between, ran, returned⟩ := both
    obtain ⟨rfl, rfl⟩ := Prod.mk.inj ran
    exact ⟨given, rfl, returned⟩
  · intro both
    obtain ⟨given, rfl, returned⟩ := both
    exact ⟨given, current, rfl, returned⟩

theorem catchWith_of_ok {body : Stateful state failure α} {current later : state} {value : α}
    (returned : body current = (.ok value, later))
    (handler : failure → Stateful state failure α) :
    catchWith body handler current = (.ok value, later) := by
  unfold catchWith
  rw [returned]

theorem catchWith_of_error {body : Stateful state failure α} {current later : state}
    {reason : failure} (failed : body current = (.error reason, later))
    (handler : failure → Stateful state failure α) :
    catchWith body handler current = handler reason later := by
  unfold catchWith
  rw [failed]

/-! ### Failures that change nothing -/

def Atomic (program : Stateful state failure α) : Prop :=
  ∀ current reason later, program current = (.error reason, later) → later = current

theorem atomic_ask_bind {answer : Except failure α} {next : α → Stateful state failure β}
    (rest : ∀ value, Atomic (next value)) : Atomic (ask answer >>= next) := by
  intro current reason later failed
  cases answer with
  | error _reason => exact (Prod.mk.inj failed).2.symm
  | ok value => exact rest value current reason later failed

/-! ### Triples -/

/-- From every state with the precondition, a return or a failure with the
postcondition for it. -/
def Triple (before : state → Prop) (program : Stateful state failure α)
    (returns : α → state → Prop) (fails : failure → state → Prop) : Prop :=
  ∀ current, before current →
    match program current with
    | (.ok value, later) => returns value later
    | (.error reason, later) => fails reason later

section Rules

variable {before : state → Prop} {returns : α → state → Prop} {fails : failure → state → Prop}

theorem Triple.of_ok {program : Stateful state failure α} {current later : state} {value : α}
    (triple : Triple before program returns fails) (holds : before current)
    (returned : program current = (.ok value, later)) : returns value later := by
  have outcome := triple current holds
  rw [returned] at outcome
  exact outcome

theorem Triple.of_error {program : Stateful state failure α} {current later : state}
    {reason : failure} (triple : Triple before program returns fails) (holds : before current)
    (failed : program current = (.error reason, later)) : fails reason later := by
  have outcome := triple current holds
  rw [failed] at outcome
  exact outcome

theorem triple_pure {value : α} (already : ∀ current, before current → returns value current) :
    Triple before (pure value) returns fails :=
  fun current holds => already current holds

theorem triple_fail {reason : failure}
    (already : ∀ current, before current → fails reason current) :
    Triple before (fail reason : Stateful state failure α) returns fails :=
  fun current holds => already current holds

theorem triple_bind {between : α → state → Prop} {first : Stateful state failure α}
    {next : α → Stateful state failure β} {final : β → state → Prop}
    (head : Triple before first between fails)
    (tail : ∀ value, Triple (between value) (next value) final fails) :
    Triple before (first >>= next) final fails := by
  intro current holds
  have outcome := head current holds
  change match andThen first next current with
    | (.ok value, later) => final value later
    | (.error reason, later) => fails reason later
  unfold andThen
  rcases ran : first current with ⟨answer, later⟩
  rw [ran] at outcome
  cases answer with
  | error reason => exact outcome
  | ok value => exact tail value later outcome

theorem triple_catch {body : Stateful state failure α}
    {handler : failure → Stateful state failure α} {caught : failure → state → Prop}
    (tried : Triple before body returns caught)
    (handled : ∀ reason, Triple (caught reason) (handler reason) returns fails) :
    Triple before (catchWith body handler) returns fails := by
  intro current holds
  have outcome := tried current holds
  unfold catchWith
  rcases ran : body current with ⟨answer, later⟩
  rw [ran] at outcome
  cases answer with
  | ok value => exact outcome
  | error reason => exact handled reason later outcome

theorem triple_consequence {program : Stateful state failure α} {weaker : state → Prop}
    {stronger : α → state → Prop} {worse : failure → state → Prop}
    (triple : Triple weaker program stronger worse)
    (pre : ∀ current, before current → weaker current)
    (post : ∀ value current, stronger value current → returns value current)
    (failing : ∀ reason current, worse reason current → fails reason current) :
    Triple before program returns fails := by
  intro current holds
  have outcome := triple current (pre current holds)
  rcases ran : program current with ⟨answer, later⟩
  rw [ran] at outcome
  cases answer with
  | ok value => exact post value later outcome
  | error reason => exact failing reason later outcome

theorem triple_ite {condition : Prop} [Decidable condition]
    {yes no : Stateful state failure α}
    (onYes : condition → Triple before yes returns fails)
    (onNo : ¬ condition → Triple before no returns fails) :
    Triple before (if condition then yes else no) returns fails := by
  split
  · exact onYes ‹_›
  · exact onNo ‹_›

end Rules

end Stateful

end Library
