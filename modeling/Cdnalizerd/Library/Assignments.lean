/-
Loops that fill a table, one assignment for each item, and that may fail.
-/

import Mathlib.Data.List.Forall2
import Mathlib.Logic.Function.Basic

namespace Library.Assignments

variable {ε σ α β : Type}

theorem bind_eq_ok_iff {first : Except ε α} {next : α → Except ε β} {result : β} :
    (first >>= next) = .ok result ↔ ∃ value, first = .ok value ∧ next value = .ok result := by
  cases first with
  | error failure =>
      constructor
      · intro impossible
        cases impossible
      · intro succeeds
        obtain ⟨_value, impossible, _rest⟩ := succeeds
        cases impossible
  | ok value =>
      constructor
      · exact fun returned => ⟨value, rfl, returned⟩
      · intro succeeds
        obtain ⟨same, isValue, returned⟩ := succeeds
        obtain rfl := Except.ok.inj isValue
        exact returned

/-- A loop whose body reads the item and then cannot fail reads every item. -/
theorem foldlM_eq_ok_iff {step : σ → α → Except ε σ} {reads : α → β → Prop}
    {apply : σ → β → σ}
    (step_iff : ∀ state item next,
      step state item = .ok next ↔ ∃ value, reads item value ∧ apply state value = next)
    {items : List α} {start final : σ} :
    items.foldlM step start = .ok final ↔
      ∃ values, List.Forall₂ reads items values ∧ values.foldl apply start = final := by
  induction items generalizing start with
  | nil =>
      rw [List.foldlM_nil]
      constructor
      · intro returned
        exact ⟨[], List.Forall₂.nil, Except.ok.inj returned⟩
      · intro read
        obtain ⟨values, all, folded⟩ := read
        cases all
        exact congrArg Except.ok folded
  | cons item items ih =>
      rw [List.foldlM_cons, bind_eq_ok_iff]
      constructor
      · intro returned
        obtain ⟨middle, stepped, rest⟩ := returned
        obtain ⟨value, readItem, rfl⟩ := (step_iff start item middle).mp stepped
        obtain ⟨values, all, folded⟩ := ih.mp rest
        exact ⟨value :: values, List.Forall₂.cons readItem all, folded⟩
      · intro read
        obtain ⟨values, all, folded⟩ := read
        cases all with
        | cons readItem allRest =>
            exact ⟨_, (step_iff start item _).mpr ⟨_, readItem, rfl⟩, ih.mpr ⟨_, allRest, folded⟩⟩

variable {κ ν : Type} [DecidableEq κ]

/-- The last assignment to a key is the one that is found. -/
theorem foldl_update (key : α → κ) (value : α → ν) (items : List α) (table : κ → Option ν)
    (wanted : κ) :
    items.foldl (fun filled item => Function.update filled (key item) (some (value item)))
        table wanted =
      ((items.reverse.find? (fun item => key item = wanted)).map value).or (table wanted) := by
  induction items generalizing table with
  | nil => rfl
  | cons item items ih =>
      rw [List.foldl_cons, ih, List.reverse_cons, List.find?_append]
      cases items.reverse.find? (fun item => key item = wanted) with
      | some found => rfl
      | none =>
          by_cases same : key item = wanted
          · subst same
            simp
          · simp [same, Function.update_of_ne (Ne.symm same)]

section Idle

variable {step : σ → α → σ} {before after : σ} {items : List α}

theorem foldl_stays (stays : ∀ item ∈ items, step after item = after) :
    items.foldl step after = after := by
  induction items with
  | nil => rfl
  | cons item items ih =>
      rw [List.foldl_cons, stays item List.mem_cons_self]
      exact ih (fun other member => stays other (List.mem_cons_of_mem item member))

/-- A fold of steps that each do nothing, or all the same thing, does it or not. -/
theorem foldl_idle_or_done
    (moves : ∀ item ∈ items, (step before item = before ∨ step before item = after) ∧
      step after item = after) :
    items.foldl step before = before ∨ items.foldl step before = after := by
  induction items with
  | nil => exact Or.inl rfl
  | cons item items ih =>
      obtain ⟨first | first, _stays⟩ := moves item List.mem_cons_self
      · rw [List.foldl_cons, first]
        exact ih (fun other member => moves other (List.mem_cons_of_mem item member))
      · rw [List.foldl_cons, first]
        exact Or.inr (foldl_stays
          (fun other member => (moves other (List.mem_cons_of_mem item member)).2))

/-- It does it if one of them does. -/
theorem foldl_done
    (moves : ∀ item ∈ items, (step before item = before ∨ step before item = after) ∧
      step after item = after)
    {acting : α} (among : acting ∈ items) (acts : step before acting = after) :
    items.foldl step before = after := by
  induction items with
  | nil => cases among
  | cons item items ih =>
      have later : ∀ other ∈ items, step after other = after :=
        fun other member => (moves other (List.mem_cons_of_mem item member)).2
      rw [List.foldl_cons]
      rcases List.mem_cons.mp among with rfl | inRest
      · rw [acts]
        exact foldl_stays later
      · obtain ⟨first | first, _stays⟩ := moves item List.mem_cons_self
        · rw [first]
          exact ih (fun other member => moves other (List.mem_cons_of_mem item member)) inRest
        · rw [first]
          exact foldl_stays later

end Idle

end Library.Assignments
