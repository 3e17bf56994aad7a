/-
Comparing values by any field that is less.

Such a comparison says that one value is not at or above the other in the
product order of the fields.  It is a strict order just on those values of
which any two stand one above the other.
-/

import Mathlib.Data.Set.Basic

namespace Library.FieldOrders

variable {α κ : Type}

def ExactlyOne (first second third : Prop) : Prop :=
  (first ∧ ¬ second ∧ ¬ third) ∨ (¬ first ∧ second ∧ ¬ third) ∨ (¬ first ∧ ¬ second ∧ third)

/-- Fit to sort some values by, with nothing but the same value between before
and behind. -/
structure StrictOrderOn (values : Set α) (less same : α → α → Prop) : Prop where
  irreflexive : ∀ first ∈ values, ¬ less first first
  asymmetric : ∀ first ∈ values, ∀ second ∈ values, less first second → ¬ less second first
  transitive : ∀ first ∈ values, ∀ second ∈ values, ∀ third ∈ values,
    less first second → less second third → less first third
  trichotomous : ∀ first ∈ values, ∀ second ∈ values,
    ExactlyOne (less first second) (less second first) (same first second)

variable [PartialOrder κ] {key : α → κ} {less same : α → α → Prop}

theorem exactlyOne_of_le (less_iff : ∀ left right, less left right ↔ ¬ key right ≤ key left)
    (same_iff : ∀ left right, same left right ↔ key left = key right) {first second : α}
    (upTo : key first ≤ key second) :
    ExactlyOne (less first second) (less second first) (same first second) := by
  unfold ExactlyOne
  rw [less_iff, less_iff, same_iff, not_not, not_not]
  by_cases downTo : key second ≤ key first
  · exact Or.inr (Or.inr ⟨downTo, upTo, le_antisymm upTo downTo⟩)
  · exact Or.inl ⟨downTo, upTo, fun equal => downTo equal.ge⟩

theorem ExactlyOne.swap {first second third other : Prop}
    (one : ExactlyOne first second third) (same : third ↔ other) :
    ExactlyOne second first other := by
  unfold ExactlyOne at one ⊢
  rw [← same]
  rcases one with ⟨yes, no, none⟩ | ⟨no, yes, none⟩ | ⟨no, none, yes⟩
  · exact Or.inr (Or.inl ⟨no, yes, none⟩)
  · exact Or.inl ⟨yes, no, none⟩
  · exact Or.inr (Or.inr ⟨none, no, yes⟩)

theorem strictOrderOn_iff (less_iff : ∀ left right, less left right ↔ ¬ key right ≤ key left)
    (same_iff : ∀ left right, same left right ↔ key left = key right) (values : Set α) :
    StrictOrderOn values less same ↔
      ∀ first ∈ values, ∀ second ∈ values,
        key first ≤ key second ∨ key second ≤ key first := by
  constructor
  · intro order first firstMember second secondMember
    by_cases upTo : key first ≤ key second
    · exact Or.inl upTo
    · right
      have notLess := order.asymmetric second secondMember first firstMember
        ((less_iff second first).mpr upTo)
      exact not_not.mp (fun above => notLess ((less_iff first second).mpr above))
  · intro comparable
    refine ⟨?_, ?_, ?_, ?_⟩
    · intro first _member before
      exact (less_iff first first).mp before le_rfl
    · intro first firstMember second secondMember before behind
      rcases comparable first firstMember second secondMember with upTo | downTo
      · exact (less_iff second first).mp behind upTo
      · exact (less_iff first second).mp before downTo
    · intro first firstMember second secondMember third _member before beforeThird
      rw [less_iff] at before beforeThird ⊢
      intro downTo
      -- The second value lies above the first, and so above the third.
      have upTo := (comparable first firstMember second secondMember).resolve_right before
      exact beforeThird (le_trans downTo upTo)
    · intro first firstMember second secondMember
      rcases comparable first firstMember second secondMember with upTo | downTo
      · exact exactlyOne_of_le less_iff same_iff upTo
      · apply (exactlyOne_of_le less_iff same_iff downTo).swap
        rw [same_iff, same_iff]
        exact eq_comm

end Library.FieldOrders
