/-
Partial maps: their keys, and two of them that are each other's inverse.

A pair is entered into both where both are free, and taken out of both.
-/

import Mathlib.Order.BooleanAlgebra.Set

namespace Library.InverseMaps

variable {α β : Type}

/-! ### Keys -/

def keys (table : α → Option β) : Set α :=
  {key | table key ≠ none}

theorem mem_keys_iff {table : α → Option β} {key : α} :
    key ∈ keys table ↔ ∃ value, table key = some value :=
  Option.ne_none_iff_exists'

theorem keys_none : keys (fun _ : α => (none : Option β)) = ∅ := by
  apply Set.eq_empty_of_forall_notMem
  intro key impossible
  exact impossible rfl

section

variable [DecidableEq α]

theorem keys_enter (table : α → Option β) (key : α) (value : β) :
    keys (Function.update table key (some value)) = insert key (keys table) := by
  apply Set.ext
  intro other
  by_cases same : other = key
  · subst same
    simp [keys]
  · simp [keys, same]

theorem keys_erase (table : α → Option β) (key : α) :
    keys (Function.update table key none) = keys table \ {key} := by
  apply Set.ext
  intro other
  by_cases same : other = key
  · subst same
    simp [keys]
  · simp [keys, same]

end

/-! ### Inverse maps -/

def Inverse (forward : α → Option β) (back : β → Option α) : Prop :=
  ∀ key value, forward key = some value ↔ back value = some key

theorem inverse_none : Inverse (fun _ : α => (none : Option β)) (fun _ => none) := by
  intro key value
  constructor
  all_goals
    intro impossible
    cases impossible

variable {forward : α → Option β} {back : β → Option α} {key : α} {value : β}

theorem Inverse.symm (inverse : Inverse forward back) : Inverse back forward :=
  fun value key => (inverse key value).symm

theorem Inverse.key_ne (inverse : Inverse forward back) (free : forward key = none)
    {other : α} (entered : back value = some other) : other ≠ key := by
  intro same
  subst same
  rw [(inverse _ _).mpr entered] at free
  cases free

variable [DecidableEq α] [DecidableEq β]

theorem Inverse.insert (inverse : Inverse forward back) (freeKey : forward key = none)
    (freeValue : back value = none) :
    Inverse (Function.update forward key (some value))
      (Function.update back value (some key)) := by
  intro otherKey otherValue
  by_cases sameKey : otherKey = key
  · subst sameKey
    rw [Function.update_self]
    constructor
    · intro same
      rw [← Option.some.inj same, Function.update_self]
    · intro found
      by_cases sameValue : otherValue = value
      · rw [sameValue]
      · rw [Function.update_of_ne sameValue] at found
        exact (inverse.key_ne freeKey found rfl).elim
  · rw [Function.update_of_ne sameKey]
    by_cases sameValue : otherValue = value
    · subst sameValue
      rw [Function.update_self]
      constructor
      · intro found
        exact (inverse.symm.key_ne freeValue found rfl).elim
      · intro same
        exact (sameKey (Option.some.inj same).symm).elim
    · rw [Function.update_of_ne sameValue]
      exact inverse otherKey otherValue

theorem Inverse.erase (inverse : Inverse forward back) (pair : forward key = some value) :
    Inverse (Function.update forward key none) (Function.update back value none) := by
  intro otherKey otherValue
  by_cases sameKey : otherKey = key
  · subst sameKey
    rw [Function.update_self]
    constructor
    · intro impossible
      cases impossible
    · intro found
      by_cases sameValue : otherValue = value
      · subst sameValue
        rw [Function.update_self] at found
        cases found
      · rw [Function.update_of_ne sameValue, ← inverse, pair] at found
        exact (sameValue (Option.some.inj found).symm).elim
  · rw [Function.update_of_ne sameKey]
    by_cases sameValue : otherValue = value
    · subst sameValue
      rw [Function.update_self, inverse, (inverse key otherValue).mp pair]
      constructor
      · intro same
        exact (sameKey (Option.some.inj same).symm).elim
      · intro impossible
        cases impossible
    · rw [Function.update_of_ne sameValue]
      exact inverse otherKey otherValue

end Library.InverseMaps
