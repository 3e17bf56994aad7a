/-
The two functions `joinPaths`: the template, and the one of two arguments.

Both write a separator where there is none.  Where there are two, the template
keeps both; the other function drops one, unless it is all that is joined.
-/

import Cdnalizerd.Basic
import Cdnalizerd.Library.SeparatorJoin

namespace Cdnalizerd

open SeparatorJoin

/-! ### The template -/

/-- The lambda of the fold. -/
def joinStep (a b : Bytes) : Bytes :=
  if (a ≠ [] ∧ a.getLast? = some slash) ∨ (b ≠ [] ∧ b.head? = some slash) then a ++ b
  else a ++ slash :: b

/-- The template, of one parameter or more. -/
def joinPaths (first : Bytes) (rest : List Bytes) : Bytes :=
  rest.foldl joinStep first

/-! ### The function of two arguments -/

/-- `joinPaths` of two arguments.  Looking at the last or the first byte of an empty
string is undefined. -/
def joinTwoPaths (base extra : Bytes) : Except Failure Bytes :=
  if base = [] ∨ extra = [] then .error .undefinedBehaviour
  else
    let out := if base.getLast? = some slash then base else base ++ [slash]
    if extra.head? = some slash ∧ 1 < extra.length then .ok (out ++ extra.tail)
    else .ok (out ++ extra)

/-! ### One joint of the template -/

theorem joinStep_of_none {a b : Bytes} (noneBehind : countBehind slash a = 0)
    (noneBefore : countBefore slash b = 0) : joinStep a b = a ++ slash :: b := by
  have open_end : a.getLast? ≠ some slash := by
    intro closed
    have behind := (countBehind_pos_iff a).mpr closed
    omega
  have open_front : b.head? ≠ some slash := by
    intro closed
    have before := (countBefore_pos_iff b).mpr closed
    omega
  unfold joinStep
  rw [if_neg]
  intro closed
  rcases closed with ⟨_nonempty, behind⟩ | ⟨_nonempty, before⟩
  · exact open_end behind
  · exact open_front before

theorem joinStep_of_some {a b : Bytes} (present : 0 < countBehind slash a + countBefore slash b) :
    joinStep a b = a ++ b := by
  unfold joinStep
  rw [if_pos]
  rcases Nat.add_pos_iff_pos_or_pos.mp present with behind | before
  · have closed := (countBehind_pos_iff a).mp behind
    exact Or.inl ⟨List.ne_nil_of_mem (List.mem_of_getLast? closed), closed⟩
  · have closed := (countBefore_pos_iff b).mp before
    exact Or.inr ⟨List.ne_nil_of_mem (List.mem_of_head? closed), closed⟩

theorem joinStep_eq_joinOnce {a b : Bytes}
    (single : countBehind slash a + countBefore slash b ≤ 1) :
    joinStep a b = joinOnce slash a b := by
  rcases Nat.le_one_iff_eq_zero_or_eq_one.mp single with none | one
  · obtain ⟨noneBehind, noneBefore⟩ := Nat.add_eq_zero_iff.mp none
    rw [joinStep_of_none noneBehind noneBefore, joinOnce_of_none noneBehind noneBefore]
  · rw [joinStep_of_some (by omega), joinOnce_of_one one]

/-- The template's joint ends in a slash only where the single one does. -/
theorem countBehind_joinStep {a b : Bytes} (other : Bytes)
    (closed : 0 < countBehind slash (joinStep a b)) :
    0 < countBehind slash (joinOnce slash other b) := by
  rw [countBehind_joinOnce]
  split
  · exact Nat.one_pos
  · rename_i kept
    unfold joinStep at closed
    split at closed
    · rwa [countBehind_append a kept] at closed
    · rw [← List.singleton_append, ← List.append_assoc, countBehind_append _ kept] at closed
      exact closed

/-- The template's joint adds at least as much as the single one does. -/
theorem length_joinStep {longer shorter : Bytes} (b : Bytes)
    (closed : 0 < countBehind slash longer → 0 < countBehind slash shorter) :
    (joinOnce slash shorter b).length + longer.length ≤
      (joinStep longer b).length + shorter.length := by
  have single := @length_joinOnce _ _ slash shorter b
  by_cases none : countBehind slash longer = 0 ∧ countBefore slash b = 0
  · rw [joinStep_of_none none.1 none.2, List.length_append, List.length_cons]
    omega
  · rw [joinStep_of_some (by omega), List.length_append]
    omega

/-! ### All joints -/

/-- At every joint the slashes on its two sides are at most one.  The first count
is that of the slashes left of the next joint: a part of slashes only leaves the
one of its own joint there. -/
def SingleJoints : Nat → List Bytes → Prop
  | _behind, [] => True
  | behind, part :: rest =>
      behind + countBefore slash part ≤ 1 ∧
        SingleJoints (if trimLeft slash part = [] then 1 else countBehind slash part) rest

instance instDecidableSingleJoints (behind : Nat) (parts : List Bytes) :
    Decidable (SingleJoints behind parts) :=
  match parts with
  | [] => isTrue trivial
  | _part :: rest => @instDecidableAnd _ _ _ (instDecidableSingleJoints _ rest)

theorem length_joinPaths (rest : List Bytes) {longer shorter : Bytes}
    (closed : 0 < countBehind slash longer → 0 < countBehind slash shorter) :
    (joinAll slash shorter rest).length + longer.length ≤
      (joinPaths longer rest).length + shorter.length := by
  induction rest generalizing longer shorter with
  | nil => exact Nat.le_of_eq (Nat.add_comm _ _)
  | cons b rest ih =>
      have joint := length_joinStep b closed
      have later := @ih (joinStep longer b) (joinOnce slash shorter b) (countBehind_joinStep _)
      change (joinAll slash (joinOnce slash shorter b) rest).length + longer.length ≤
        (joinPaths (joinStep longer b) rest).length + shorter.length
      omega

theorem joinPaths_eq_joinAll_iff (first : Bytes) (rest : List Bytes) :
    joinPaths first rest = joinAll slash first rest ↔
      SingleJoints (countBehind slash first) rest := by
  induction rest generalizing first with
  | nil => exact iff_of_true rfl trivial
  | cons b rest ih =>
      change joinPaths (joinStep first b) rest = joinAll slash (joinOnce slash first b) rest ↔
        countBehind slash first + countBefore slash b ≤ 1 ∧ _
      by_cases single : countBehind slash first + countBefore slash b ≤ 1
      · rw [joinStep_eq_joinOnce single, ih, countBehind_joinOnce, and_iff_right single]
      · refine iff_of_false ?_ (fun both => single both.1)
        intro same
        -- What is too long at this joint stays too long.
        have later := @length_joinPaths rest (joinStep first b) (joinOnce slash first b)
          (countBehind_joinStep _)
        have joint := @length_joinOnce _ _ slash first b
        rw [same, joinStep_of_some (by omega), List.length_append] at later
        omega

/-! ### Both functions -/

theorem joinStep_slash (base rest : Bytes) :
    joinStep base (slash :: rest) = base ++ slash :: rest :=
  if_pos (Or.inr ⟨List.cons_ne_nil slash rest, rfl⟩)

theorem joinTwoPaths_of_open {base extra : Bytes} (baseNonempty : base ≠ [])
    (extraNonempty : extra ≠ []) (open_front : extra.head? ≠ some slash) :
    joinTwoPaths base extra = .ok (joinStep base extra) := by
  unfold joinTwoPaths joinStep
  rw [if_neg (not_or.mpr ⟨baseNonempty, extraNonempty⟩)]
  by_cases closed : base.getLast? = some slash
  · simp [closed, open_front, baseNonempty]
  · simp [closed, open_front]

theorem joinTwoPaths_slash {base : Bytes} (baseNonempty : base ≠ []) (rest : Bytes) :
    joinTwoPaths base (slash :: rest) =
      .ok ((if base.getLast? = some slash then base else base ++ [slash]) ++
        if rest = [] then [slash] else rest) := by
  unfold joinTwoPaths
  rw [if_neg (not_or.mpr ⟨baseNonempty, List.cons_ne_nil slash rest⟩)]
  cases rest with
  | nil => simp
  | cons byte rest => simp

/-- The two functions give one string, unless the second string begins with a
slash that one of them drops or doubles. -/
theorem joinTwoPaths_eq_iff {base extra : Bytes} (baseNonempty : base ≠ [])
    (extraNonempty : extra ≠ []) :
    joinTwoPaths base extra = .ok (joinPaths base [extra]) ↔
      (extra.head? = some slash → (base.getLast? = some slash ↔ extra = [slash])) := by
  change joinTwoPaths base extra = .ok (joinStep base extra) ↔ _
  by_cases front : extra.head? = some slash
  · obtain ⟨rest, rfl⟩ : ∃ rest, extra = slash :: rest := List.head?_eq_some_iff.mp front
    rw [joinTwoPaths_slash baseNonempty, joinStep_slash, Except.ok.injEq]
    by_cases closed : base.getLast? = some slash
    · by_cases alone : rest = []
      · simp [closed, alone]
      · simp [closed, alone]
    · by_cases alone : rest = []
      · simp [closed, alone]
      · simp [closed, alone]
  · rw [joinTwoPaths_of_open baseNonempty extraNonempty front]
    exact iff_of_true rfl (fun closed => (front closed).elim)

/-- When the template writes one separator at each joint of any strings, and when it
agrees with the function of two arguments on two that are not empty. -/
theorem joinPaths_agree_iff (first : Bytes) (rest : List Bytes) {base extra : Bytes}
    (baseNonempty : base ≠ []) (extraNonempty : extra ≠ []) :
    (joinPaths first rest = joinAll slash first rest ↔
      SingleJoints (countBehind slash first) rest) ∧
    (joinTwoPaths base extra = .ok (joinPaths base [extra]) ↔
      (extra.head? = some slash → (base.getLast? = some slash ↔ extra = [slash]))) :=
  ⟨joinPaths_eq_joinAll_iff first rest, joinTwoPaths_eq_iff baseNonempty extraNonempty⟩

theorem joinPaths_agree_iff_sample :
    joinPaths (text "/a") [text "b/", [], text "c"] = text "/a/b/c" ∧
      joinTwoPaths (text "/a") (text "/b") = .ok (joinPaths (text "/a") [text "/b"]) := by
  have baseNonempty : text "/a" ≠ [] := by decide
  have extraNonempty : text "/b" ≠ [] := by decide
  have agree := joinPaths_agree_iff (text "/a") [text "b/", [], text "c"] baseNonempty
    extraNonempty
  exact ⟨agree.1.mpr (by decide), agree.2.mpr (by decide)⟩

theorem two_slashes_kept :
    joinPaths (text "a/") [text "/b"] = text "a//b" ∧
      joinPaths (text "a/") [text "/b"] ≠ joinAll slash (text "a/") [text "/b"] ∧
      joinTwoPaths (text "a/") (text "/b") = .ok (text "a/b") ∧
      joinTwoPaths (text "a/") (text "/b") ≠ .ok (joinPaths (text "a/") [text "/b"]) := by
  decide

end Cdnalizerd
