/-
Which items of the left sequence two cursors leave over.

An item is left over when the right sequence is used up by the items before it
and by what it passes itself.  Using it up is stated with a free choice of what
each item takes; a walk, which always takes as much as it can, is never behind
such a choice.
-/

import Cdnalizerd.Library.TwoCursors

namespace Library.TwoCursors

variable {failure action α β : Type}

/-- The right sequence is used up when each item of the left sequence may, in
turn, pass some of its heads and be paired with one. -/
inductive UsedUp (passes pairs : α → β → Prop) : List α → List β → Prop
  | done (left : List α) : UsedUp passes pairs left []
  | skip {left : List α} {right : List β} (first : α) :
      UsedUp passes pairs left right → UsedUp passes pairs (first :: left) right
  | pass {left : List α} {right : List β} {first : α} {second : β} : passes first second →
      UsedUp passes pairs (first :: left) right →
        UsedUp passes pairs (first :: left) (second :: right)
  | pair {left : List α} {right : List β} {first : α} {second : β} : pairs first second →
      UsedUp passes pairs left right → UsedUp passes pairs (first :: left) (second :: right)

/-- What a round that returns says about its two heads. -/
structure Decides (body : α → β → Traced failure action Advance) (passes pairs : α → β → Prop) :
    Prop where
  right : ∀ first second advance, (body first second).result = .ok advance →
    (advance = .right ↔ passes first second)
  both : ∀ first second advance, (body first second).result = .ok advance →
    (advance = .both ↔ pairs first second)

variable {body : α → β → Traced failure action Advance} {passes pairs : α → β → Prop}

theorem usedUp_of_run (decides : Decides body passes pairs) {left : List α} {right : List β}
    {state : List α × List β} (returned : (run body left right).result = .ok state) :
    ∃ taken, right = taken ++ state.2 ∧ UsedUp passes pairs left taken := by
  revert returned
  apply round_induction (motive := fun left right =>
    (run body left right).result = .ok state →
      ∃ taken, right = taken ++ state.2 ∧ UsedUp passes pairs left taken)
  · intro right returned
    rw [run_nil_left] at returned
    rw [← Except.ok.inj returned]
    exact ⟨[], rfl, UsedUp.done []⟩
  · intro left returned
    rw [run_nil_right] at returned
    rw [← Except.ok.inj returned]
    exact ⟨[], rfl, UsedUp.done left⟩
  · intro first left second right ih returned
    obtain ⟨advance, bodyReturned, later⟩ := run_result_cons_iff.mp returned
    obtain ⟨taken, split, usedUp⟩ := ih advance later
    cases advance with
    | left => exact ⟨taken, split, usedUp.skip first⟩
    | right =>
        have passed := (decides.right first second .right bodyReturned).mp rfl
        exact ⟨second :: taken, congrArg (second :: ·) split, usedUp.pass passed⟩
    | both =>
        have paired := (decides.both first second .both bodyReturned).mp rfl
        exact ⟨second :: taken, congrArg (second :: ·) split, usedUp.pair paired⟩

/-- The items behind the first one are walked with what it leaves. -/
theorem run_behind_first {first : α} {left : List α} {right : List β}
    {state : List α × List β} (returned : (run body (first :: left) right).result = .ok state) :
    state.2 = [] ∨ ∃ later, later <:+ right ∧ (run body left later).result = .ok state := by
  induction right with
  | nil =>
      rw [run_nil_right] at returned
      rw [← Except.ok.inj returned]
      exact Or.inl rfl
  | cons second right ih =>
      obtain ⟨advance, _bodyReturned, later⟩ := run_result_cons_iff.mp returned
      cases advance with
      | left => exact Or.inr ⟨second :: right, List.suffix_refl _, later⟩
      | both => exact Or.inr ⟨right, List.suffix_cons second right, later⟩
      | right =>
          apply (ih later).imp_right
          intro ⟨rest, remaining, walked⟩
          exact ⟨rest, remaining.trans (List.suffix_cons second right), walked⟩

/-- A walk gets at least as far as any choice does. -/
theorem suffix_of_usedUp (decides : Decides body passes pairs) {left : List α}
    {taken rest right : List β} {state : List α × List β}
    (usedUp : UsedUp passes pairs left taken) (ahead : right <:+ taken ++ rest)
    (returned : (run body left right).result = .ok state) : state.2 <:+ rest := by
  induction usedUp generalizing right with
  | done left => exact (suffix_of_run returned).2.trans ahead
  | skip first _usedUp ih =>
      rcases run_behind_first returned with ended | ⟨later, remaining, walked⟩
      · rw [ended]
        exact List.nil_suffix
      · exact ih (remaining.trans ahead) walked
  | @pass left taken first second passed _usedUp ih =>
      rcases List.suffix_cons_iff.mp ahead with same | further
      · subst same
        obtain ⟨advance, bodyReturned, later⟩ := run_result_cons_iff.mp returned
        obtain rfl := (decides.right first second advance bodyReturned).mpr passed
        exact ih (List.suffix_refl _) later
      · exact ih further returned
  | @pair left taken first second paired _usedUp ih =>
      rcases List.suffix_cons_iff.mp ahead with same | further
      · subst same
        obtain ⟨advance, bodyReturned, later⟩ := run_result_cons_iff.mp returned
        obtain rfl := (decides.both first second advance bodyReturned).mpr paired
        exact ih (List.suffix_refl _) later
      · rcases run_behind_first returned with ended | ⟨later, remaining, walked⟩
        · rw [ended]
          exact List.nil_suffix
        · exact ih (remaining.trans further) walked

theorem stays_of_passes (decides : Decides body passes pairs) {first : α} {left : List α}
    {right : List β} {state : List α × List β} (all : ∀ second ∈ right, passes first second)
    (returned : (run body (first :: left) right).result = .ok state) :
    state.1 = first :: left := by
  induction right with
  | nil =>
      rw [run_nil_right] at returned
      rw [← Except.ok.inj returned]
  | cons second right ih =>
      obtain ⟨advance, bodyReturned, later⟩ := run_result_cons_iff.mp returned
      obtain rfl := (decides.right first second advance bodyReturned).mpr
        (all second List.mem_cons_self)
      exact ih (fun other member => all other (List.mem_cons_of_mem second member)) later

theorem passes_of_stays (decides : Decides body passes pairs) {first : α} {left : List α}
    {right : List β} {state : List α × List β} (absent : first ∉ left)
    (returned : (run body (first :: left) right).result = .ok state)
    (member : first ∈ state.1) : ∀ second ∈ right, passes first second := by
  induction right with
  | nil =>
      intro second secondMember
      cases secondMember
  | cons second right ih =>
      obtain ⟨advance, bodyReturned, later⟩ := run_result_cons_iff.mp returned
      cases advance with
      | left => exact absurd ((suffix_of_run later).1.subset member) absent
      | both => exact absurd ((suffix_of_run later).1.subset member) absent
      | right =>
          have passed := (decides.right first second .right bodyReturned).mp rfl
          exact List.forall_mem_cons.mpr ⟨passed, ih later⟩

/-- An item is left over exactly when it passes all that the items before it
can leave. -/
theorem left_over_iff (decides : Decides body passes pairs) {before after : List α}
    {first : α} {right : List β} {state : List α × List β} (absent : first ∉ after)
    (returned : (run body (before ++ first :: after) right).result = .ok state) :
    first ∈ state.1 ↔ ∃ taken rest, right = taken ++ rest ∧
      UsedUp passes pairs before taken ∧ ∀ second ∈ rest, passes first second := by
  rw [run_append_cons] at returned
  obtain ⟨⟨beforeLeft, middle⟩, beforeReturned, later⟩ :=
    Traced.bind_result_eq_ok_iff.mp returned
  have either := left_out_or_right_out beforeReturned
  dsimp only at later either
  constructor
  · intro member
    obtain ⟨taken, split, usedUp⟩ := usedUp_of_run decides beforeReturned
    refine ⟨taken, middle, split, usedUp, ?_⟩
    rcases either with rfl | rfl
    · exact passes_of_stays decides absent later member
    · intro second secondMember
      cases secondMember
  · intro ⟨taken, rest, split, usedUp, all⟩
    have reached : middle <:+ rest :=
      suffix_of_usedUp decides usedUp (split ▸ List.suffix_refl _) beforeReturned
    rcases either with rfl | rfl
    · rw [stays_of_passes decides (fun second member => all second (reached.subset member))
        later]
      exact List.mem_cons_self
    · rw [run_nil_right] at later
      rw [← Except.ok.inj later]
      exact List.mem_append_right beforeLeft List.mem_cons_self

/-! ### What was performed -/

variable {performed : action}

theorem mem_run {left : List α} {right : List β}
    (member : performed ∈ (run body left right).trace) :
    ∃ first ∈ left, ∃ second ∈ right, performed ∈ (body first second).trace := by
  revert member
  apply round_induction (motive := fun left right =>
    performed ∈ (run body left right).trace →
      ∃ first ∈ left, ∃ second ∈ right, performed ∈ (body first second).trace)
  · intro right member
    rw [run_nil_left] at member
    cases member
  · intro left member
    rw [run_nil_right] at member
    cases member
  · intro first left second right ih member
    rw [run_cons_cons] at member
    rcases Traced.mem_bind_iff.mp member with now | ⟨advance, _returned, later⟩
    · exact ⟨first, List.mem_cons_self, second, List.mem_cons_self, now⟩
    · obtain ⟨item, itemMember, other, otherMember, inside⟩ := ih advance later
      exact ⟨item, (advanced_suffix advance).1.subset itemMember, other,
        (advanced_suffix advance).2.subset otherMember, inside⟩

theorem mem_drain_iff {gate : Traced failure action Unit} (silent : gate.trace = [])
    {item : α → Traced failure action Unit} {left : List α} {right : List β} :
    performed ∈ (drain body gate item left right).trace ↔
      performed ∈ (run body left right).trace ∨
        ∃ state, (run body left right).result = .ok state ∧ gate.result = .ok () ∧
          performed ∈ (Traced.each item state.1).trace := by
  unfold drain
  rw [Traced.mem_bind_iff]
  apply or_congr_right
  apply exists_congr
  intro state
  apply and_congr_right
  intro _walked
  rw [Traced.mem_bind_iff, silent]
  constructor
  · rintro (nothing | ⟨_unit, opened, inside⟩)
    · cases nothing
    · exact ⟨opened, inside⟩
  · intro ⟨opened, inside⟩
    exact Or.inr ⟨(), opened, inside⟩

end Library.TwoCursors
