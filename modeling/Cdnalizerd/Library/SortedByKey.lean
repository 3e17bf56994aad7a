/-
Lists in the order of a key, and the search for the first item that does not
come before a bound.
-/

import Mathlib.Data.List.Sort
import Mathlib.Data.List.TakeWhile

namespace Library.SortedByKey

variable {α κ : Type} [LinearOrder κ] {key : α → κ}

def SortedBy (key : α → κ) (items : List α) : Prop :=
  items.Pairwise (fun left right => key left ≤ key right)

/-- The items from the first one on that does not come before the bound. -/
def lowerBound (key : α → κ) (bound : κ) (items : List α) : List α :=
  items.dropWhile (fun item => decide (key item < bound))

theorem lowerBound_cons_of_lt {bound : κ} {item : α} (before : key item < bound)
    (items : List α) : lowerBound key bound (item :: items) = lowerBound key bound items :=
  List.dropWhile_cons_of_pos (decide_eq_true before)

theorem lowerBound_cons_of_le {bound : κ} {item : α} (after : bound ≤ key item)
    (items : List α) : lowerBound key bound (item :: items) = item :: items :=
  List.dropWhile_cons_of_neg (fun before => not_lt_of_ge after (of_decide_eq_true before))

theorem lowerBound_eq_nil_iff {bound : κ} {items : List α} :
    lowerBound key bound items = [] ↔ ∀ item ∈ items, key item < bound := by
  unfold lowerBound
  rw [List.dropWhile_eq_nil_iff]
  constructor
  · intro dropped item member
    exact of_decide_eq_true (dropped item member)
  · intro before item member
    exact decide_eq_true (before item member)

/-- What the search finds is an item at or behind the bound. -/
theorem found_of_lowerBound {bound : κ} {items rest : List α} {found : α}
    (searched : lowerBound key bound items = found :: rest) :
    found ∈ items ∧ bound ≤ key found := by
  induction items with
  | nil => cases searched
  | cons item items ih =>
      rcases lt_or_ge (key item) bound with before | after
      · rw [lowerBound_cons_of_lt before] at searched
        obtain ⟨member, behind⟩ := ih searched
        exact ⟨List.mem_cons_of_mem item member, behind⟩
      · rw [lowerBound_cons_of_le after] at searched
        obtain ⟨rfl, _same⟩ := List.cons.inj searched
        exact ⟨List.mem_cons_self, after⟩

/-- Among sorted items the search finds one at the bound, if there is one. -/
theorem key_found_of_mem {bound : κ} {items rest : List α} {found item : α}
    (sorted : SortedBy key items) (member : item ∈ items) (exact_key : key item = bound)
    (searched : lowerBound key bound items = found :: rest) : key found = bound := by
  induction items with
  | nil => cases member
  | cons first items ih =>
      obtain ⟨smallest, restSorted⟩ := List.pairwise_cons.mp sorted
      rcases lt_or_ge (key first) bound with before | after
      · rw [lowerBound_cons_of_lt before] at searched
        have later : item ∈ items := by
          rcases List.mem_cons.mp member with same | later
          · rw [← same, exact_key] at before
            exact (lt_irrefl bound before).elim
          · exact later
        exact ih restSorted later searched
      · rw [lowerBound_cons_of_le after] at searched
        obtain ⟨rfl, _same⟩ := List.cons.inj searched
        rcases List.mem_cons.mp member with same | later
        · rw [← same, exact_key]
        · exact le_antisymm (exact_key ▸ smallest item later) after

/-- A new item is entered where the search for its key ends. -/
theorem orderedInsert_at_lowerBound {upTo : α → α → Prop} [DecidableRel upTo]
    (upTo_iff : ∀ left right, upTo left right ↔ key left ≤ key right) (item : α)
    (items : List α) :
    ∃ before, items = before ++ lowerBound key (key item) items ∧
      items.orderedInsert upTo item = before ++ item :: lowerBound key (key item) items := by
  have same : (fun other => decide ¬ upTo item other) =
      fun other => decide (key other < key item) := by
    funext other
    rw [decide_eq_decide, upTo_iff, not_le]
  refine ⟨items.takeWhile (fun other => decide (key other < key item)),
    List.takeWhile_append_dropWhile.symm, ?_⟩
  rw [List.orderedInsert_eq_take_drop, same]
  rfl

/-- Keys that are all different leave one order only. -/
theorem eq_of_perm {left right : List α} (permuted : left.Perm right)
    (distinct : (left.map key).Nodup) (leftSorted : SortedBy key left)
    (rightSorted : SortedBy key right) : left = right := by
  apply List.Perm.eq_of_pairwise _ leftSorted rightSorted permuted
  intro first second firstMember secondMember upTo downTo
  exact List.inj_on_of_nodup_map distinct firstMember (permuted.mem_iff.mpr secondMember)
    (le_antisymm upTo downTo)

end Library.SortedByKey
