/-
Two cursors over two sequences.

While both sequences have something left, a body looks at the two heads and
says which cursor moves on.  The body may act and may fail.
-/

import Cdnalizerd.Library.Traced

namespace Library.TwoCursors

inductive Advance where
  | left
  | right
  | both
deriving DecidableEq

variable {failure action α β : Type}

@[semireducible] def run (body : α → β → Traced failure action Advance) :
    List α → List β → Traced failure action (List α × List β)
  | [], right => pure ([], right)
  | first :: left, [] => pure (first :: left, [])
  | first :: left, second :: right => do
      match ← body first second with
      | .left => run body left (second :: right)
      | .right => run body (first :: left) right
      | .both => run body left right
termination_by left right => left.length + right.length

variable {body : α → β → Traced failure action Advance}

/-! ### One round -/

def advanced (first : α) (left : List α) (second : β) (right : List β) :
    Advance → List α × List β
  | .left => (left, second :: right)
  | .right => (first :: left, right)
  | .both => (left, right)

@[simp] theorem run_nil_left (right : List β) : run body [] right = pure ([], right) := by
  unfold run
  rfl

@[simp] theorem run_nil_right (left : List α) : run body left [] = pure (left, []) := by
  cases left with
  | nil => exact run_nil_left []
  | cons first left =>
      unfold run
      rfl

theorem run_cons_cons (first : α) (left : List α) (second : β) (right : List β) :
    run body (first :: left) (second :: right) =
      body first second >>= fun advance =>
        run body (advanced first left second right advance).1
          (advanced first left second right advance).2 := by
  conv => lhs; unfold run
  congr 1
  funext advance
  cases advance <;> rfl

theorem advanced_shorter (first : α) (left : List α) (second : β) (right : List β)
    (advance : Advance) :
    (advanced first left second right advance).1.length +
        (advanced first left second right advance).2.length <
      (first :: left).length + (second :: right).length := by
  cases advance <;> simp only [advanced, List.length_cons] <;> omega

theorem advanced_suffix {first : α} {left : List α} {second : β} {right : List β}
    (advance : Advance) :
    (advanced first left second right advance).1 <:+ first :: left ∧
      (advanced first left second right advance).2 <:+ second :: right := by
  cases advance with
  | left => exact ⟨List.suffix_cons first left, List.suffix_refl _⟩
  | right => exact ⟨List.suffix_refl _, List.suffix_cons second right⟩
  | both => exact ⟨List.suffix_cons first left, List.suffix_cons second right⟩

/-- What holds where a sequence has run out and is kept by a round holds
everywhere. -/
theorem round_induction {motive : List α → List β → Prop}
    (leftOut : ∀ right, motive [] right) (rightOut : ∀ left, motive left [])
    (round : ∀ first left second right,
      (∀ advance, motive (advanced first left second right advance).1
        (advanced first left second right advance).2) →
      motive (first :: left) (second :: right)) (left : List α) (right : List β) :
    motive left right := by
  induction size : left.length + right.length using Nat.strongRecOn
    generalizing left right with
  | _ length ih =>
      cases left with
      | nil => exact leftOut right
      | cons first left =>
          cases right with
          | nil => exact rightOut (first :: left)
          | cons second right =>
              apply round
              intro advance
              apply ih _ _ _ _ rfl
              rw [← size]
              exact advanced_shorter first left second right advance

/-! ### Splitting a run -/

theorem run_append_left (before after : List α) (right : List β) :
    run body (before ++ after) right =
      run body before right >>= fun state => run body (state.1 ++ after) state.2 := by
  revert after
  apply round_induction (motive := fun before right => ∀ after,
    run body (before ++ after) right =
      run body before right >>= fun state => run body (state.1 ++ after) state.2)
  · intro right after
    rw [run_nil_left]
    rfl
  · intro before after
    rw [run_nil_right, run_nil_right, Traced.pure_bind, run_nil_right]
  · intro first left second right ih after
    rw [List.cons_append, run_cons_cons, run_cons_cons, Traced.bind_assoc]
    congr 1
    funext advance
    rw [← ih advance after]
    cases advance <;> rfl

theorem run_append_right (left : List α) (before after : List β) :
    run body left (before ++ after) =
      run body left before >>= fun state => run body state.1 (state.2 ++ after) := by
  revert after
  apply round_induction (motive := fun left before => ∀ after,
    run body left (before ++ after) =
      run body left before >>= fun state => run body state.1 (state.2 ++ after))
  · intro before after
    rw [run_nil_left, run_nil_left, Traced.pure_bind, run_nil_left]
  · intro left after
    rw [run_nil_right]
    rfl
  · intro first left second right ih after
    rw [List.cons_append, run_cons_cons, run_cons_cons, Traced.bind_assoc]
    congr 1
    funext advance
    rw [← ih advance after]
    cases advance <;> rfl

theorem run_singleton_cons (first : α) (second : β) (right : List β) :
    run body [first] (second :: right) =
      body first second >>= fun advance =>
        match advance with
        | .left => pure ([], second :: right)
        | .right => run body [first] right
        | .both => pure ([], right) := by
  rw [run_cons_cons]
  congr 1
  funext advance
  cases advance <;> simp only [advanced, run_nil_left]

/-! ### What is left over -/

theorem run_result_cons_iff {first : α} {left : List α} {second : β} {right : List β}
    {state : List α × List β} :
    (run body (first :: left) (second :: right)).result = .ok state ↔
      ∃ advance, (body first second).result = .ok advance ∧
        (run body (advanced first left second right advance).1
          (advanced first left second right advance).2).result = .ok state := by
  rw [run_cons_cons, Traced.bind_result_eq_ok_iff]

theorem left_out_or_right_out {left : List α} {right : List β} {state : List α × List β}
    (returned : (run body left right).result = .ok state) : state.1 = [] ∨ state.2 = [] := by
  revert returned
  apply round_induction (motive := fun left right =>
    (run body left right).result = .ok state → state.1 = [] ∨ state.2 = [])
  · intro right returned
    rw [run_nil_left] at returned
    exact Or.inl (congrArg Prod.fst (Except.ok.inj returned)).symm
  · intro left returned
    rw [run_nil_right] at returned
    exact Or.inr (congrArg Prod.snd (Except.ok.inj returned)).symm
  · intro first left second right ih returned
    obtain ⟨advance, _bodyReturned, later⟩ := run_result_cons_iff.mp returned
    exact ih advance later

theorem suffix_of_run {left : List α} {right : List β} {state : List α × List β}
    (returned : (run body left right).result = .ok state) :
    state.1 <:+ left ∧ state.2 <:+ right := by
  revert returned
  apply round_induction (motive := fun left right =>
    (run body left right).result = .ok state → state.1 <:+ left ∧ state.2 <:+ right)
  · intro right returned
    rw [run_nil_left] at returned
    rw [← Except.ok.inj returned]
    exact ⟨List.suffix_refl _, List.suffix_refl _⟩
  · intro left returned
    rw [run_nil_right] at returned
    rw [← Except.ok.inj returned]
    exact ⟨List.suffix_refl _, List.suffix_refl _⟩
  · intro first left second right ih returned
    obtain ⟨advance, _bodyReturned, later⟩ := run_result_cons_iff.mp returned
    obtain ⟨leftKept, rightKept⟩ := ih advance later
    exact ⟨leftKept.trans (advanced_suffix advance).1,
      rightKept.trans (advanced_suffix advance).2⟩

theorem mem_of_never_passed {left : List α} {right : List β} {state : List α × List β}
    (returned : (run body left right).result = .ok state) {second : β}
    (member : second ∈ right)
    (stays : ∀ first ∈ left, ∀ advance, (body first second).result = .ok advance →
      advance = .left) : second ∈ state.2 := by
  revert returned member stays
  apply round_induction (motive := fun left right =>
    (run body left right).result = .ok state → second ∈ right →
      (∀ first ∈ left, ∀ advance, (body first second).result = .ok advance →
        advance = .left) → second ∈ state.2)
  · intro right returned member _stays
    rw [run_nil_left] at returned
    rw [← Except.ok.inj returned]
    exact member
  · intro left _returned member
    cases member
  · intro first left other right ih returned member stays
    obtain ⟨advance, bodyReturned, later⟩ := run_result_cons_iff.mp returned
    have behind : advance ≠ .left → second ∈ right := by
      intro moved
      rcases List.mem_cons.mp member with same | inRest
      · subst same
        exact absurd (stays first List.mem_cons_self advance bodyReturned) moved
      · exact inRest
    apply ih advance later
    · cases advance
      · exact member
      · exact behind (by decide)
      · exact behind (by decide)
    · intro item itemMember
      exact stays item ((advanced_suffix advance).1.subset itemMember)

/-- Where the right sequence is ordered, every item of it that is left over
stands in the relation `passed` to every item of the left sequence that is
not, provided one round brings that about. -/
theorem passed_of_run {order : β → β → Prop} {passed : α → β → Prop} {left : List α}
    {right : List β} {state : List α × List β}
    (returned : (run body left right).result = .ok state) (ordered : right.Pairwise order)
    (alone : ∀ first ∈ left, ∀ second ∈ right, (body first second).result = .ok .left →
      passed first second ∧ ∀ later, order second later → passed first later)
    (paired : ∀ first ∈ left, ∀ second ∈ right, (body first second).result = .ok .both →
      ∀ later, order second later → passed first later) :
    ∀ first ∈ left, first ∈ state.1 ∨ ∀ second ∈ state.2, passed first second := by
  revert returned ordered alone paired
  apply round_induction (motive := fun left right =>
    (run body left right).result = .ok state → right.Pairwise order →
      (∀ first ∈ left, ∀ second ∈ right, (body first second).result = .ok .left →
        passed first second ∧ ∀ later, order second later → passed first later) →
      (∀ first ∈ left, ∀ second ∈ right, (body first second).result = .ok .both →
        ∀ later, order second later → passed first later) →
      ∀ first ∈ left, first ∈ state.1 ∨ ∀ second ∈ state.2, passed first second)
  · intro right _returned _ordered _alone _paired first member
    cases member
  · intro left returned _ordered _alone _paired first member
    rw [run_nil_right] at returned
    rw [← Except.ok.inj returned]
    exact Or.inl member
  · intro head left second right ih returned ordered alone paired first member
    obtain ⟨advance, bodyReturned, later⟩ := run_result_cons_iff.mp returned
    obtain ⟨headFirst, restOrdered⟩ := List.pairwise_cons.mp ordered
    have remaining := (suffix_of_run later).2
    cases advance with
    | left =>
        rcases List.mem_cons.mp member with same | inRest
        · subst same
          obtain ⟨here, after⟩ := alone first List.mem_cons_self second List.mem_cons_self
            bodyReturned
          right
          intro other otherMember
          rcases List.mem_cons.mp (remaining.subset otherMember) with same | inRight
          · exact same ▸ here
          · exact after other (headFirst other inRight)
        · exact ih .left later ordered
            (fun item itemMember => alone item (List.mem_cons_of_mem head itemMember))
            (fun item itemMember => paired item (List.mem_cons_of_mem head itemMember))
            first inRest
    | right =>
        exact ih .right later restOrdered
          (fun item itemMember other otherMember =>
            alone item itemMember other (List.mem_cons_of_mem second otherMember))
          (fun item itemMember other otherMember =>
            paired item itemMember other (List.mem_cons_of_mem second otherMember))
          first member
    | both =>
        rcases List.mem_cons.mp member with same | inRest
        · subst same
          right
          intro other otherMember
          exact paired first List.mem_cons_self second List.mem_cons_self bodyReturned other
            (headFirst other (remaining.subset otherMember))
        · exact ih .both later restOrdered
            (fun item itemMember other otherMember =>
              alone item (List.mem_cons_of_mem head itemMember) other
                (List.mem_cons_of_mem second otherMember))
            (fun item itemMember other otherMember =>
              paired item (List.mem_cons_of_mem head itemMember) other
                (List.mem_cons_of_mem second otherMember))
            first inRest

/-! ### Counting actions -/

variable {counted : action → Bool}

theorem count_run_eq_zero {left : List α} {right : List β}
    (quiet : ∀ first ∈ left, ∀ second ∈ right,
      Traced.count counted (body first second) = 0) :
    Traced.count counted (run body left right) = 0 := by
  revert quiet
  apply round_induction (motive := fun left right =>
    (∀ first ∈ left, ∀ second ∈ right, Traced.count counted (body first second) = 0) →
      Traced.count counted (run body left right) = 0)
  · intro right _quiet
    rw [run_nil_left, Traced.count_pure]
  · intro left _quiet
    rw [run_nil_right, Traced.count_pure]
  · intro first left second right ih quiet
    rw [run_cons_cons]
    apply Traced.count_bind_eq_zero
    · exact quiet first List.mem_cons_self second List.mem_cons_self
    · intro advance _returned
      apply ih advance
      intro item itemMember other otherMember
      exact quiet item ((advanced_suffix advance).1.subset itemMember) other
        ((advanced_suffix advance).2.subset otherMember)

/-- A single item is left over, or one round moves past it and acts as the
whole run does. -/
theorem singleton_round {first : α} {right : List β} {state : List α × List β}
    (returned : (run body [first] right).result = .ok state)
    (quiet : ∀ second ∈ right, (body first second).result = .ok .right →
      Traced.count counted (body first second) = 0) :
    state.1 = [first] ∧ Traced.count counted (run body [first] right) = 0 ∨
      state.1 = [] ∧ ∃ second ∈ right, ∃ advance, advance ≠ .right ∧
        (body first second).result = .ok advance ∧
        Traced.count counted (run body [first] right) =
          Traced.count counted (body first second) := by
  induction right with
  | nil =>
      rw [run_nil_right] at returned ⊢
      rw [← Except.ok.inj returned]
      exact Or.inl ⟨rfl, rfl⟩
  | cons second right ih =>
      rw [run_singleton_cons] at returned ⊢
      obtain ⟨advance, bodyReturned, later⟩ :=
        Traced.bind_result_eq_ok_iff.mp returned
      rw [Traced.count_bind_of_ok counted bodyReturned]
      cases advance with
      | left =>
          right
          refine ⟨?_, second, List.mem_cons_self, .left, by decide, bodyReturned, rfl⟩
          rw [← Except.ok.inj later]
      | both =>
          right
          refine ⟨?_, second, List.mem_cons_self, .both, by decide, bodyReturned, rfl⟩
          rw [← Except.ok.inj later]
      | right =>
          rw [quiet second List.mem_cons_self bodyReturned, Nat.zero_add]
          rcases ih later (fun other member => quiet other (List.mem_cons_of_mem second member))
            with leftOver | ⟨consumed, other, member, advance, moved, otherReturned, counts⟩
          · exact Or.inl leftOver
          · exact Or.inr ⟨consumed, other, List.mem_cons_of_mem second member, advance, moved,
              otherReturned, counts⟩

/-- A single item that some round must move past is never left over, and a
run that is quiet up to that round is quiet. -/
theorem singleton_stops {order : β → β → Prop} {first : α} {right : List β}
    (ordered : right.Pairwise order) {stop : β} (member : stop ∈ right)
    (stops : (body first stop).result ≠ .ok .right)
    (quiet : ∀ second ∈ right, second = stop ∨ order second stop →
      Traced.count counted (body first second) = 0) :
    Traced.count counted (run body [first] right) = 0 ∧
      ∀ state, (run body [first] right).result = .ok state → state.1 = [] := by
  induction right with
  | nil => cases member
  | cons second right ih =>
      obtain ⟨headFirst, restOrdered⟩ := List.pairwise_cons.mp ordered
      have headQuiet : Traced.count counted (body first second) = 0 := by
        apply quiet second List.mem_cons_self
        rcases List.mem_cons.mp member with same | inRest
        · exact Or.inl same.symm
        · exact Or.inr (headFirst stop inRest)
      have later (passed : (body first second).result = .ok .right) :
          Traced.count counted (run body [first] right) = 0 ∧
            ∀ state, (run body [first] right).result = .ok state → state.1 = [] := by
        rcases List.mem_cons.mp member with same | inRest
        · subst same
          exact absurd passed stops
        · exact ih restOrdered inRest
            (fun other otherMember => quiet other (List.mem_cons_of_mem second otherMember))
      rw [run_singleton_cons]
      constructor
      · apply Traced.count_bind_eq_zero counted headQuiet
        intro advance bodyReturned
        cases advance with
        | left => exact Traced.count_pure counted _
        | both => exact Traced.count_pure counted _
        | right => exact (later bodyReturned).1
      · intro state returned
        obtain ⟨advance, bodyReturned, rest⟩ :=
          Traced.bind_result_eq_ok_iff.mp returned
        cases advance with
        | left => rw [← Except.ok.inj rest]
        | both => rw [← Except.ok.inj rest]
        | right => exact (later bodyReturned).2 state rest

/-! ### One item among others -/

theorem run_append_cons (before : List α) (first : α) (after : List α) (right : List β) :
    run body (before ++ first :: after) right =
      run body before right >>= fun state =>
        run body (state.1 ++ first :: after) state.2 :=
  run_append_left before (first :: after) right

/-- Where only one item of the left sequence is counted, a run that returns
leaves it over uncounted, or counts what the one round does that moves past it. -/
theorem count_run_of_single {before after : List α} {first : α} {right : List β}
    {state : List α × List β}
    (returned : (run body (before ++ first :: after) right).result = .ok state)
    (others : ∀ item ∈ before ++ after, ∀ second ∈ right,
      Traced.count counted (body item second) = 0)
    (quiet : ∀ second ∈ right, (body first second).result = .ok .right →
      Traced.count counted (body first second) = 0) :
    first ∈ state.1 ∧
        Traced.count counted (run body (before ++ first :: after) right) = 0 ∨
      state.1 <:+ after ∧ ∃ middle, (run body before right).result = .ok ([], middle) ∧
        ∃ second ∈ middle, ∃ advance, advance ≠ .right ∧
          (body first second).result = .ok advance ∧
          Traced.count counted (run body (before ++ first :: after) right) =
            Traced.count counted (body first second) := by
  rw [run_append_cons] at returned ⊢
  obtain ⟨⟨beforeLeft, middle⟩, beforeReturned, restReturned⟩ :=
    Traced.bind_result_eq_ok_iff.mp returned
  have beforeQuiet : Traced.count counted (run body before right) = 0 := by
    apply count_run_eq_zero
    intro item itemMember
    exact others item (List.mem_append_left after itemMember)
  have middleRight := (suffix_of_run beforeReturned).2
  rw [Traced.count_bind_of_ok counted beforeReturned, beforeQuiet, Nat.zero_add]
  rcases left_out_or_right_out beforeReturned with leftOut | rightOut
  · replace leftOut : beforeLeft = [] := leftOut
    subst leftOut
    replace restReturned : (run body ([first] ++ after) middle).result = .ok state :=
      restReturned
    change first ∈ state.1 ∧ Traced.count counted (run body ([first] ++ after) middle) = 0 ∨ _
    rw [run_append_left] at restReturned
    obtain ⟨later, singleReturned, afterReturned⟩ :=
      Traced.bind_result_eq_ok_iff.mp restReturned
    have laterRight := (suffix_of_run singleReturned).2
    have afterQuiet (consumed : later.1 = []) :
        Traced.count counted (run body (later.1 ++ after) later.2) = 0 := by
      apply count_run_eq_zero
      rw [consumed, List.nil_append]
      intro item itemMember second secondMember
      exact others item (List.mem_append_right before itemMember) second
        (middleRight.subset (laterRight.subset secondMember))
    have split : Traced.count counted (run body ([first] ++ after) middle) =
        Traced.count counted (run body [first] middle) +
          Traced.count counted (run body (later.1 ++ after) later.2) := by
      rw [run_append_left, Traced.count_bind_of_ok counted singleReturned]
    rcases singleton_round singleReturned
      (fun second member => quiet second (middleRight.subset member))
      with ⟨leftOver, nothing⟩ | ⟨consumed, second, member, advance, moved, bodyReturned, counts⟩
    · left
      have stopped : later.2 = [] := by
        rcases left_out_or_right_out singleReturned with absent | stopped
        · rw [leftOver] at absent
          cases absent
        · exact stopped
      rw [leftOver, stopped, run_nil_right] at afterReturned
      constructor
      · rw [← Except.ok.inj afterReturned]
        exact List.mem_cons_self
      · rw [split, nothing, leftOver, stopped, run_nil_right, Traced.count_pure]
    · right
      rw [consumed] at afterReturned
      refine ⟨(suffix_of_run afterReturned).1, middle, beforeReturned, second, member, advance,
        moved, bodyReturned, ?_⟩
      change Traced.count counted (run body ([first] ++ after) middle) = _
      rw [split, counts, afterQuiet consumed, Nat.add_zero]
  · left
    replace rightOut : middle = [] := rightOut
    subst rightOut
    rw [run_nil_right] at restReturned
    constructor
    · rw [← Except.ok.inj restReturned]
      exact List.mem_append_right beforeLeft List.mem_cons_self
    · rw [run_nil_right, Traced.count_pure]

/-- An item stays uncounted in every run, and is not left over, if some item of
the right sequence waits for it and the rounds up to there are quiet. -/
theorem count_run_of_stop {order : β → β → Prop} {before after : List α} {first : α}
    {right : List β} (ordered : right.Pairwise order) {stop : β} (member : stop ∈ right)
    (others : ∀ item ∈ before ++ after, ∀ second ∈ right,
      Traced.count counted (body item second) = 0)
    (stays : ∀ item ∈ before, ∀ advance, (body item stop).result = .ok advance →
      advance = .left)
    (stops : (body first stop).result ≠ .ok .right)
    (quiet : ∀ second ∈ right, second = stop ∨ order second stop →
      Traced.count counted (body first second) = 0) :
    Traced.count counted (run body (before ++ first :: after) right) = 0 ∧
      ∀ state, (run body (before ++ first :: after) right).result = .ok state →
        state.1 <:+ after := by
  have beforeQuiet : Traced.count counted (run body before right) = 0 := by
    apply count_run_eq_zero
    intro item itemMember
    exact others item (List.mem_append_left after itemMember)
  -- The item waited for is still there when the first cursor arrives.
  have arrives {middle : List α × List β}
      (beforeReturned : (run body before right).result = .ok middle) :
      middle.1 = [] ∧ stop ∈ middle.2 ∧ middle.2 <:+ right := by
    have waiting := mem_of_never_passed beforeReturned member stays
    refine ⟨?_, waiting, (suffix_of_run beforeReturned).2⟩
    rcases left_out_or_right_out beforeReturned with leftOut | rightOut
    · exact leftOut
    · rw [rightOut] at waiting
      cases waiting
  have single {middle : List β} (kept : middle <:+ right) (waiting : stop ∈ middle) :=
    @singleton_stops failure action α β body counted order first middle
      (ordered.sublist kept.sublist) stop waiting stops
      (fun second secondMember => quiet second (kept.subset secondMember))
  rw [run_append_cons]
  constructor
  · apply Traced.count_bind_eq_zero counted beforeQuiet
    intro middle beforeReturned
    obtain ⟨leftOut, waiting, kept⟩ := arrives beforeReturned
    rw [leftOut, List.nil_append]
    change Traced.count counted (run body ([first] ++ after) middle.2) = 0
    rw [run_append_left]
    apply Traced.count_bind_eq_zero counted (single kept waiting).1
    intro later singleReturned
    rw [(single kept waiting).2 later singleReturned, List.nil_append]
    apply count_run_eq_zero
    intro item itemMember second secondMember
    exact others item (List.mem_append_right before itemMember) second
      (kept.subset ((suffix_of_run singleReturned).2.subset secondMember))
  · intro state returned
    obtain ⟨middle, beforeReturned, restReturned⟩ :=
      Traced.bind_result_eq_ok_iff.mp returned
    obtain ⟨leftOut, waiting, kept⟩ := arrives beforeReturned
    rw [leftOut, List.nil_append] at restReturned
    change (run body ([first] ++ after) middle.2).result = .ok state at restReturned
    rw [run_append_left] at restReturned
    obtain ⟨later, singleReturned, afterReturned⟩ :=
      Traced.bind_result_eq_ok_iff.mp restReturned
    rw [(single kept waiting).2 later singleReturned, List.nil_append] at afterReturned
    exact (suffix_of_run afterReturned).1

/-! ### Dealing with what is left over -/

/-- The walk, a gate, and then the items of the left sequence that are left
over. -/
def drain (body : α → β → Traced failure action Advance) (gate : Traced failure action Unit)
    (item : α → Traced failure action Unit) (left : List α) (right : List β) :
    Traced failure action Unit := do
  let state ← run body left right
  gate
  Traced.each item state.1

section Drain

variable {gate : Traced failure action Unit} {item : α → Traced failure action Unit}
  {before : List α} {right : List β}

theorem drain_append (before more : List α) (right : List β) :
    drain body gate item (before ++ more) right =
      run body before right >>= fun state =>
        drain body gate item (state.1 ++ more) state.2 := by
  unfold drain
  rw [run_append_left, Traced.bind_assoc]

theorem drain_nil_left (right : List β) :
    drain body gate item [] right = gate >>= fun _ => pure () := by
  unfold drain
  rw [run_nil_left, Traced.pure_bind]
  rfl

theorem drain_nil_right (left : List α) :
    drain body gate item left [] = gate >>= fun _ => Traced.each item left := by
  unfold drain
  rw [run_nil_right, Traced.pure_bind]

theorem drain_returned (returned : (drain body gate item before right).result = .ok ()) :
    ∃ state, (run body before right).result = .ok state ∧ gate.result = .ok () ∧
      (Traced.each item state.1).result = .ok () := by
  obtain ⟨state, walked, later⟩ := Traced.bind_result_eq_ok_iff.mp returned
  obtain ⟨_unit, opened, finished⟩ := Traced.bind_result_eq_ok_iff.mp later
  exact ⟨state, walked, opened, finished⟩

theorem drain_nil_right_of_stopped (opened : gate.result = .ok ()) {left : List α}
    (stopped : (drain body gate item left []).result ≠ .ok ()) (more : List α) :
    drain body gate item (left ++ more) [] = drain body gate item left [] := by
  rw [drain_nil_right] at stopped ⊢
  rw [drain_nil_right, Traced.each_append_of_stopped]
  intro finished
  exact stopped (Traced.bind_result_eq_ok_iff.mpr ⟨(), opened, finished⟩)

/-- Nothing behind an item that stops the walk or the left-over loop is reached. -/
theorem drain_stops {first : α}
    (returned : (drain body gate item before right).result = .ok ())
    (stopped : (drain body gate item (before ++ [first]) right).result ≠ .ok ())
    (after : List α) :
    drain body gate item (before ++ first :: after) right =
      drain body gate item (before ++ [first]) right := by
  obtain ⟨state, walked, opened, _finished⟩ := drain_returned returned
  rw [drain_append before] at stopped ⊢
  rw [drain_append before]
  apply Traced.bind_congr_of_result
  intro reached again
  obtain rfl : state = reached := Except.ok.inj (walked.symm.trans again)
  have stoppedHere : (drain body gate item (state.1 ++ [first]) state.2).result ≠ .ok () := by
    intro finished
    exact stopped (Traced.bind_result_eq_ok_iff.mpr ⟨state, walked, finished⟩)
  rcases left_out_or_right_out walked with leftOut | rightOut
  · -- The walk is still going on: the item stops in a round, or is left over.
    rw [leftOut, List.nil_append] at stoppedHere ⊢
    rw [← List.append_nil [first], drain_append [first]] at stoppedHere
    rw [List.nil_append, ← List.singleton_append, drain_append [first],
      ← List.append_nil [first], drain_append [first], List.append_nil]
    apply Traced.bind_congr_of_result
    intro later passed
    have stoppedLater : (drain body gate item (later.1 ++ []) later.2).result ≠ .ok () := by
      intro finished
      exact stoppedHere (Traced.bind_result_eq_ok_iff.mpr ⟨later, passed, finished⟩)
    rw [List.append_nil] at stoppedLater ⊢
    rcases left_out_or_right_out passed with consumed | ended
    · rw [consumed, drain_nil_left] at stoppedLater
      exact absurd (Traced.bind_result_eq_ok_iff.mpr ⟨(), opened, rfl⟩) stoppedLater
    · rw [ended] at stoppedLater ⊢
      exact drain_nil_right_of_stopped opened stoppedLater after
  · rw [rightOut] at stoppedHere ⊢
    rw [← drain_nil_right_of_stopped opened stoppedHere after, List.append_assoc]
    rfl

theorem count_drain_eq_zero {left : List α} (gateQuiet : Traced.count counted gate = 0)
    (bodyQuiet : ∀ first ∈ left, ∀ second ∈ right, Traced.count counted (body first second) = 0)
    (itemQuiet : ∀ first ∈ left, Traced.count counted (item first) = 0) :
    Traced.count counted (drain body gate item left right) = 0 := by
  apply Traced.count_bind_eq_zero _ (count_run_eq_zero bodyQuiet)
  intro state walked
  apply Traced.count_bind_eq_zero _ gateQuiet
  intro _unit _opened
  apply Traced.count_each_eq_zero
  intro first member
  exact itemQuiet first ((suffix_of_run walked).1.subset member)

/-- Items that come later and count nothing leave the count as it is. -/
theorem count_drain_append {more : List α}
    (returned : (drain body gate item before right).result = .ok ())
    (gateQuiet : Traced.count counted gate = 0)
    (bodyQuiet : ∀ first ∈ more, ∀ second ∈ right, Traced.count counted (body first second) = 0)
    (itemQuiet : ∀ first ∈ more, Traced.count counted (item first) = 0) :
    Traced.count counted (drain body gate item (before ++ more) right) =
      Traced.count counted (drain body gate item before right) := by
  obtain ⟨state, walked, opened, finished⟩ := drain_returned returned
  have alone : Traced.count counted (drain body gate item before right) =
      Traced.count counted (run body before right) +
        Traced.count counted (Traced.each item state.1) := by
    unfold drain
    rw [Traced.count_bind_of_ok _ walked, Traced.count_bind_of_ok _ opened, gateQuiet,
      Nat.zero_add]
  rw [alone, drain_append, Traced.count_bind_of_ok _ walked]
  congr 1
  rcases left_out_or_right_out walked with leftOut | rightOut
  · rw [leftOut, List.nil_append]
    apply count_drain_eq_zero gateQuiet
    · intro first member second secondMember
      exact bodyQuiet first member second ((suffix_of_run walked).2.subset secondMember)
    · exact itemQuiet
  · rw [rightOut, drain_nil_right, Traced.count_bind_of_ok _ opened, gateQuiet, Nat.zero_add,
      Traced.each_append, Traced.count_bind_of_ok _ finished,
      Traced.count_each_eq_zero _ itemQuiet, Nat.add_zero]

end Drain

/-! ### Acting in order -/

section InOrder

variable {about : action → Option α} {gate : Traced failure action Unit}
  {item : α → Traced failure action Unit}

/-- A round acts for its own item at most, and only when it moves past it. -/
structure ActsInPassing (about : action → Option α)
    (body : α → β → Traced failure action Advance) : Prop where
  own : ∀ first second, (Traced.actedFor about (body first second)).Sublist [first]
  waiting : ∀ first second, (body first second).result = .ok .right →
    Traced.actedFor about (body first second) = []

/-- The items acted for, and behind them those that are left over. -/
def actedForAndLeft (about : action → Option α)
    (walk : Traced failure action (List α × List β)) : List α :=
  Traced.actedFor about walk ++ walk.result.toOption.elim [] Prod.fst

theorem actedForAndLeft_run (acts : ActsInPassing about body) (left : List α)
    (right : List β) : (actedForAndLeft about (run body left right)).Sublist left := by
  apply round_induction (motive := fun left right =>
    (actedForAndLeft about (run body left right)).Sublist left)
  · intro right
    rw [run_nil_left]
    exact List.Sublist.refl []
  · intro left
    rw [run_nil_right]
    exact List.Sublist.refl left
  · intro first left second right ih
    have own := acts.own first second
    unfold actedForAndLeft at ih ⊢
    rw [run_cons_cons]
    cases returned : (body first second).result with
    | error reason =>
        rw [Traced.actedFor_bind_of_error returned, Traced.bind_of_error returned]
        exact (List.append_nil (Traced.actedFor about (body first second))).symm ▸
          own.trans (List.sublist_append_left [first] left)
    | ok advance =>
        have later := ih advance
        rw [Traced.actedFor_bind_of_ok returned, Traced.bind_of_ok returned, List.append_assoc]
        cases advance with
        | left => exact own.append later
        | right =>
            rw [acts.waiting first second returned]
            exact later
        | both => exact own.append later

/-- The left-over items come behind the ones that the walk has moved past. -/
theorem actedFor_drain (acts : ActsInPassing about body)
    (gateQuiet : Traced.actedFor about gate = [])
    (own : ∀ first, (Traced.actedFor about (item first)).Sublist [first]) (left : List α)
    (right : List β) : (Traced.actedFor about (drain body gate item left right)).Sublist left := by
  have walked := actedForAndLeft_run acts left right
  unfold actedForAndLeft at walked
  unfold drain
  cases returned : (run body left right).result with
  | error reason =>
      rw [Traced.actedFor_bind_of_error returned]
      exact (List.sublist_append_left _ _).trans walked
  | ok state =>
      rw [returned] at walked
      rw [Traced.actedFor_bind_of_ok returned]
      refine (List.Sublist.append_left ?_ _).trans walked
      have quiet : (Traced.actedFor about gate).Sublist [] :=
        List.sublist_nil.mpr gateQuiet
      exact Traced.actedFor_bind quiet
        (fun _unit _opened => Traced.actedFor_each own state.1)

end InOrder

end Library.TwoCursors
