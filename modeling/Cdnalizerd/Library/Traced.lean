/-
Computations that act on their surroundings and may fail.

The actions performed are recorded in order.  A failure ends the computation
and keeps the actions performed so far.
-/

namespace Library

structure Traced (failure action value : Type) where
  trace : List action
  result : Except failure value

namespace Traced

variable {failure action α β γ : Type}

def emit (performed : action) : Traced failure action Unit :=
  ⟨[performed], .ok ()⟩

/-- A query of the surroundings that may fail and performs nothing. -/
def ask (answer : Except failure α) : Traced failure action α :=
  ⟨[], answer⟩

def fail (reason : failure) : Traced failure action α :=
  ⟨[], .error reason⟩

def andThen (first : Traced failure action α) (next : α → Traced failure action β) :
    Traced failure action β :=
  match first.result with
  | .ok value => ⟨first.trace ++ (next value).trace, (next value).result⟩
  | .error reason => ⟨first.trace, .error reason⟩

instance : Monad (Traced failure action) where
  pure value := ⟨[], .ok value⟩
  bind := andThen

@[simp] theorem pure_trace (value : α) :
    (pure value : Traced failure action α).trace = [] := rfl

@[simp] theorem pure_result (value : α) :
    (pure value : Traced failure action α).result = .ok value := rfl

@[simp] theorem ask_result (answer : Except failure α) :
    (ask answer : Traced failure action α).result = answer := rfl

theorem bind_of_ok {first : Traced failure action α} {value : α}
    (returned : first.result = .ok value) (next : α → Traced failure action β) :
    first >>= next = ⟨first.trace ++ (next value).trace, (next value).result⟩ := by
  change andThen first next = _
  unfold andThen
  rw [returned]

theorem bind_of_error {first : Traced failure action α} {reason : failure}
    (failed : first.result = .error reason) (next : α → Traced failure action β) :
    first >>= next = ⟨first.trace, .error reason⟩ := by
  change andThen first next = _
  unfold andThen
  rw [failed]

@[simp] theorem pure_bind (value : α) (next : α → Traced failure action β) :
    (pure value : Traced failure action α) >>= next = next value := rfl

@[simp] theorem ask_ok_bind (value : α) (next : α → Traced failure action β) :
    (ask (.ok value) : Traced failure action α) >>= next = next value := rfl

theorem emit_bind (performed : action) (next : Unit → Traced failure action β) :
    (emit performed : Traced failure action Unit) >>= next =
      ⟨performed :: (next ()).trace, (next ()).result⟩ := rfl

theorem bind_assoc (first : Traced failure action α) (second : α → Traced failure action β)
    (third : β → Traced failure action γ) :
    first >>= second >>= third = first >>= fun value => second value >>= third := by
  cases returned : first.result with
  | error reason =>
      rw [bind_of_error returned, bind_of_error returned]
      rfl
  | ok value =>
      rw [bind_of_ok returned, bind_of_ok returned]
      change andThen _ third = _
      cases again : (second value).result with
      | error reason =>
          rw [bind_of_error again]
          simp only [andThen]
      | ok other =>
          rw [bind_of_ok again]
          simp only [andThen, List.append_assoc]

theorem id_map_eq (computation : Traced failure action α) : id <$> computation = computation := by
  change computation >>= (fun value => pure value) = computation
  obtain ⟨trace, result⟩ := computation
  cases result with
  | error reason => rfl
  | ok value =>
      rw [bind_of_ok rfl]
      simp only [pure_trace, pure_result, List.append_nil]

instance instLawfulMonadTraced : LawfulMonad (Traced failure action) :=
  LawfulMonad.mk' _ id_map_eq pure_bind bind_assoc

theorem bind_result_eq_ok_iff {first : Traced failure action α}
    {next : α → Traced failure action β} {final : β} :
    (first >>= next).result = .ok final ↔
      ∃ value, first.result = .ok value ∧ (next value).result = .ok final := by
  cases returned : first.result with
  | error reason =>
      rw [bind_of_error returned]
      simp
  | ok value =>
      rw [bind_of_ok returned]
      simp

theorem foldlM_rule_from {state : Type} (holds : List α → state → List action → Prop)
    {body : state → α → Traced failure action state} {items : List α} {final : state}
    (kept : ∀ done item current performed next, item ∈ items → holds done current performed →
      (body current item).result = .ok next →
        holds (done ++ [item]) next (performed ++ (body current item).trace))
    {done : List α} {start : state} {performed : List action}
    (initially : holds done start performed)
    (returned : (items.foldlM body start).result = .ok final) :
    holds (done ++ items) final (performed ++ (items.foldlM body start).trace) := by
  induction items generalizing done start performed with
  | nil =>
      obtain rfl := Except.ok.inj returned
      change holds (done ++ []) start (performed ++ [])
      rw [List.append_nil, List.append_nil]
      exact initially
  | cons item items ih =>
      rw [List.foldlM_cons] at returned ⊢
      obtain ⟨next, first, rest⟩ := bind_result_eq_ok_iff.mp returned
      rw [bind_of_ok first, ← List.append_assoc, ← List.singleton_append, ← List.append_assoc]
      apply ih
      · intro done other current performed next member
        exact kept done other current performed next (List.mem_cons_of_mem item member)
      · exact kept done item start performed next List.mem_cons_self initially first
      · exact rest

/-- A rule for a loop whose state is passed on: a fact about the items done, the
state and the actions performed, kept by every round that returns. -/
theorem foldlM_rule {state : Type} (holds : List α → state → List action → Prop)
    {body : state → α → Traced failure action state} {items : List α} {final : state}
    (kept : ∀ done item current performed next, item ∈ items → holds done current performed →
      (body current item).result = .ok next →
        holds (done ++ [item]) next (performed ++ (body current item).trace))
    {start : state} {performed : List action} (initially : holds [] start performed)
    (returned : (items.foldlM body start).result = .ok final) :
    holds items final (performed ++ (items.foldlM body start).trace) :=
  foldlM_rule_from holds kept initially returned

/-- The rule for a fact about the state alone. -/
theorem foldlM_invariant {state : Type} {holds : state → Prop}
    {body : state → α → Traced failure action state}
    (kept : ∀ item current next, holds current → (body current item).result = .ok next →
      holds next)
    {items : List α} {start final : state} (initially : holds start)
    (returned : (items.foldlM body start).result = .ok final) : holds final :=
  @foldlM_rule failure action α state (fun _done current _performed => holds current) _ _ _
    (fun _done item current _performed next _member => kept item current next) start []
    initially returned

/-! ### Computations that return -/

def Returns (computation : Traced failure action α) : Prop :=
  ∃ value, computation.result = .ok value

@[simp] theorem returns_pure (value : α) :
    (pure value : Traced failure action α).Returns :=
  ⟨value, rfl⟩

@[simp] theorem returns_emit (performed : action) :
    (emit performed : Traced failure action Unit).Returns :=
  ⟨(), rfl⟩

theorem returns_bind_iff (first : Traced failure action α)
    (next : α → Traced failure action β) :
    (first >>= next).Returns ↔ ∃ value, first.result = .ok value ∧ (next value).Returns := by
  constructor
  · rintro ⟨final, returned⟩
    obtain ⟨value, earlier, later⟩ := bind_result_eq_ok_iff.mp returned
    exact ⟨value, earlier, final, later⟩
  · rintro ⟨value, earlier, final, later⟩
    exact ⟨final, bind_result_eq_ok_iff.mpr ⟨value, earlier, later⟩⟩

theorem returns_ask_bind_iff (answer : Except failure α) (next : α → Traced failure action β) :
    (ask answer >>= next).Returns ↔ ∃ value, answer = .ok value ∧ (next value).Returns :=
  returns_bind_iff (ask answer) next

theorem returns_emit_bind_iff (performed : action) (next : Unit → Traced failure action β) :
    (emit performed >>= next).Returns ↔ (next ()).Returns :=
  Iff.rfl

theorem returns_bind_of_forall {first : Traced failure action α}
    {next : α → Traced failure action β} (always : ∀ value, (next value).Returns) :
    (first >>= next).Returns ↔ first.Returns := by
  rw [returns_bind_iff]
  exact exists_congr (fun value => and_iff_left (always value))

theorem bind_congr_of_result {first : Traced failure action α}
    {next other : α → Traced failure action β}
    (same : ∀ value, first.result = .ok value → next value = other value) :
    first >>= next = first >>= other := by
  cases returned : first.result with
  | error reason => rw [bind_of_error returned, bind_of_error returned]
  | ok value => rw [bind_of_ok returned, bind_of_ok returned, same value returned]

/-! ### What was performed -/

@[simp] theorem ask_trace (answer : Except failure α) :
    (ask answer : Traced failure action α).trace = [] := rfl

@[simp] theorem emit_trace (performed : action) :
    (emit performed : Traced failure action Unit).trace = [performed] := rfl

theorem mem_bind_iff {performed : action} {first : Traced failure action α}
    {next : α → Traced failure action β} :
    performed ∈ (first >>= next).trace ↔
      performed ∈ first.trace ∨
        ∃ value, first.result = .ok value ∧ performed ∈ (next value).trace := by
  cases returned : first.result with
  | error reason =>
      rw [bind_of_error returned]
      simp
  | ok value =>
      rw [bind_of_ok returned]
      simp

theorem mem_ask_bind_iff {performed : action} {answer : Except failure α}
    {next : α → Traced failure action β} :
    performed ∈ (ask answer >>= next).trace ↔
      ∃ value, answer = .ok value ∧ performed ∈ (next value).trace := by
  rw [mem_bind_iff]
  simp

theorem mem_emit_bind_iff {performed emitted : action}
    {next : Unit → Traced failure action β} :
    performed ∈ (emit emitted >>= next).trace ↔
      performed = emitted ∨ performed ∈ (next ()).trace := by
  rw [emit_bind]
  exact List.mem_cons

/-! ### Handlers -/

def catchWith (body : Traced failure action α) (handler : failure → Traced failure action α) :
    Traced failure action α :=
  match body.result with
  | .ok value => ⟨body.trace, .ok value⟩
  | .error reason => ⟨body.trace ++ (handler reason).trace, (handler reason).result⟩

theorem mem_catchWith_iff {performed : action} {body : Traced failure action α}
    {handler : failure → Traced failure action α} :
    performed ∈ (catchWith body handler).trace ↔
      performed ∈ body.trace ∨
        ∃ reason, body.result = .error reason ∧ performed ∈ (handler reason).trace := by
  unfold catchWith
  cases body.result with
  | ok value => simp
  | error reason => simp

/-! ### Counting actions -/

def count (counted : action → Bool) (computation : Traced failure action α) : Nat :=
  computation.trace.countP counted

variable (counted : action → Bool)

@[simp] theorem count_pure (value : α) :
    count counted (pure value : Traced failure action α) = 0 := rfl

@[simp] theorem count_ask (answer : Except failure α) :
    count counted (ask answer : Traced failure action α) = 0 := rfl

theorem count_emit (performed : action) :
    count counted (emit performed : Traced failure action Unit) =
      if counted performed then 1 else 0 :=
  List.countP_singleton

theorem count_bind_of_ok {first : Traced failure action α} {value : α}
    (returned : first.result = .ok value) (next : α → Traced failure action β) :
    count counted (first >>= next) = count counted first + count counted (next value) := by
  rw [bind_of_ok returned]
  exact List.countP_append

theorem count_bind_of_error {first : Traced failure action α} {reason : failure}
    (failed : first.result = .error reason) (next : α → Traced failure action β) :
    count counted (first >>= next) = count counted first := by
  rw [bind_of_error failed]
  rfl

theorem count_bind_eq_zero {first : Traced failure action α}
    {next : α → Traced failure action β} (quiet : count counted first = 0)
    (quietAfter : ∀ value, first.result = .ok value → count counted (next value) = 0) :
    count counted (first >>= next) = 0 := by
  cases returned : first.result with
  | error reason => rw [count_bind_of_error counted returned, quiet]
  | ok value =>
      rw [count_bind_of_ok counted returned, quiet, quietAfter value returned]

/-! ### The same computation for each item -/

def each (body : α → Traced failure action Unit) : List α → Traced failure action Unit
  | [] => pure ()
  | first :: rest => body first >>= fun _ => each body rest

theorem each_append (body : α → Traced failure action Unit) (items more : List α) :
    each body (items ++ more) = each body items >>= fun _ => each body more := by
  induction items with
  | nil => rfl
  | cons first rest ih =>
      rw [List.cons_append, each, each, bind_assoc, ih]

theorem each_append_of_stopped {body : α → Traced failure action Unit} {items : List α}
    (stopped : (each body items).result ≠ .ok ()) (more : List α) :
    each body (items ++ more) = each body items := by
  rw [each_append]
  generalize each body items = earlier at stopped ⊢
  obtain ⟨trace, result⟩ := earlier
  cases result with
  | ok value => exact absurd rfl stopped
  | error reason => exact bind_of_error rfl _

theorem mem_each {performed : action} {body : α → Traced failure action Unit} {items : List α}
    (member : performed ∈ (each body items).trace) :
    ∃ item ∈ items, performed ∈ (body item).trace := by
  induction items with
  | nil => cases member
  | cons first rest ih =>
      rcases mem_bind_iff.mp member with now | ⟨_unit, _returned, later⟩
      · exact ⟨first, List.mem_cons_self, now⟩
      · obtain ⟨item, itemMember, inside⟩ := ih later
        exact ⟨item, List.mem_cons_of_mem first itemMember, inside⟩

/-- What a loop performs, in whatever round it stops, is performed by one of its
rounds, and from a state that the rounds before have kept. -/
theorem mem_foldlM {state : Type} {holds : state → Prop} {performed : action}
    {body : state → α → Traced failure action state}
    (kept : ∀ item current next, holds current → (body current item).result = .ok next →
      holds next)
    {items : List α} {start : state} (initially : holds start)
    (member : performed ∈ (items.foldlM body start).trace) :
    ∃ item ∈ items, ∃ current, holds current ∧ performed ∈ (body current item).trace := by
  induction items generalizing start with
  | nil => cases member
  | cons first rest ih =>
      rw [List.foldlM_cons] at member
      rcases mem_bind_iff.mp member with now | ⟨next, returned, later⟩
      · exact ⟨first, List.mem_cons_self, start, initially, now⟩
      · obtain ⟨item, itemMember, inside⟩ := ih (kept first start next initially returned) later
        exact ⟨item, List.mem_cons_of_mem first itemMember, inside⟩

theorem item_of_each_returned {body : α → Traced failure action Unit} {items : List α}
    (returned : (each body items).result = .ok ()) {item : α} (member : item ∈ items) :
    (body item).result = .ok () ∧ (body item).trace ⊆ (each body items).trace := by
  induction items with
  | nil => cases member
  | cons first rest ih =>
      obtain ⟨_unit, now, later⟩ := bind_result_eq_ok_iff.mp returned
      have trace : (each body (first :: rest)).trace =
          (body first).trace ++ (each body rest).trace :=
        congrArg Traced.trace (bind_of_ok now _)
      rw [trace]
      rcases List.mem_cons.mp member with rfl | inRest
      · exact ⟨now, List.subset_append_left _ _⟩
      · obtain ⟨itemReturned, inside⟩ := ih later inRest
        exact ⟨itemReturned, List.Subset.trans inside (List.subset_append_right _ _)⟩

theorem count_each_eq_zero {body : α → Traced failure action Unit} {items : List α}
    (quiet : ∀ item ∈ items, count counted (body item) = 0) :
    count counted (each body items) = 0 := by
  induction items with
  | nil => rfl
  | cons first rest ih =>
      apply count_bind_eq_zero
      · exact quiet first List.mem_cons_self
      · intro _unit _returned
        apply ih
        intro item member
        exact quiet item (List.mem_cons_of_mem first member)

/-- Where one item alone is counted, a run that returns counts it once. -/
theorem count_each_of_nodup {body : α → Traced failure action Unit} {items : List α}
    (distinct : items.Nodup) {item : α} (member : item ∈ items)
    (others : ∀ other ∈ items, other ≠ item → count counted (body other) = 0)
    (returned : (each body items).result = .ok ()) :
    (body item).result = .ok () ∧
      count counted (each body items) = count counted (body item) := by
  induction items with
  | nil => cases member
  | cons first rest ih =>
      obtain ⟨_unit, firstReturned, restReturned⟩ :=
        bind_result_eq_ok_iff.mp returned
      obtain ⟨absent, restDistinct⟩ := List.nodup_cons.mp distinct
      have counts : count counted (each body (first :: rest)) =
          count counted (body first) + count counted (each body rest) :=
        count_bind_of_ok counted firstReturned _
      rcases List.mem_cons.mp member with same | later
      · subst same
        have restQuiet : count counted (each body rest) = 0 := by
          apply count_each_eq_zero
          intro other otherMember
          apply others other (List.mem_cons_of_mem item otherMember)
          intro same
          exact absent (same ▸ otherMember)
        exact ⟨firstReturned, by rw [counts, restQuiet, Nat.add_zero]⟩
      · obtain ⟨itemReturned, restCounts⟩ := ih restDistinct later
          (fun other otherMember => others other (List.mem_cons_of_mem first otherMember))
          restReturned
        have firstQuiet : count counted (body first) = 0 := by
          apply others first List.mem_cons_self
          intro same
          exact absent (same ▸ later)
        exact ⟨itemReturned, by rw [counts, restCounts, firstQuiet, Nat.zero_add]⟩

/-! ### What is performed for which item -/

section ActedFor

variable {about : action → Option γ}

/-- The items that a computation performs something for, in order. -/
def actedFor (about : action → Option γ) (computation : Traced failure action α) : List γ :=
  computation.trace.filterMap about

theorem actedFor_bind_of_ok {first : Traced failure action α} {value : α}
    (returned : first.result = .ok value) (next : α → Traced failure action β) :
    actedFor about (first >>= next) = actedFor about first ++ actedFor about (next value) := by
  rw [bind_of_ok returned]
  exact List.filterMap_append

theorem actedFor_bind_of_error {first : Traced failure action α} {reason : failure}
    (failed : first.result = .error reason) (next : α → Traced failure action β) :
    actedFor about (first >>= next) = actedFor about first := by
  rw [bind_of_error failed]
  rfl

theorem actedFor_bind {first : Traced failure action α} {next : α → Traced failure action β}
    {items more : List γ} (now : (actedFor about first).Sublist items)
    (later : ∀ value, first.result = .ok value → (actedFor about (next value)).Sublist more) :
    (actedFor about (first >>= next)).Sublist (items ++ more) := by
  cases returned : first.result with
  | error reason =>
      rw [actedFor_bind_of_error returned]
      exact now.trans (List.sublist_append_left items more)
  | ok value =>
      rw [actedFor_bind_of_ok returned]
      exact now.append (later value returned)

/-- A query is for no item, so what follows it decides. -/
theorem actedFor_ask_bind {answer : Except failure α} {next : α → Traced failure action β}
    {items : List γ}
    (later : ∀ value, answer = .ok value → (actedFor about (next value)).Sublist items) :
    (actedFor about (ask answer >>= next)).Sublist items := by
  have nothing : (actedFor about (ask answer : Traced failure action α)).Sublist [] :=
    List.Sublist.refl []
  exact actedFor_bind nothing later

theorem actedFor_bind_pure {first : Traced failure action α} {items : List γ} (value : β)
    (now : (actedFor about first).Sublist items) :
    (actedFor about (first >>= fun _ => pure value)).Sublist items := by
  have whole := @actedFor_bind failure action α β γ about first (fun _ => pure value) items []
    now (fun _value _returned => List.Sublist.refl [])
  rwa [List.append_nil] at whole

/-- Rounds that act for their own items act in the order of the items. -/
theorem actedFor_each {about : action → Option α} {body : α → Traced failure action Unit}
    (own : ∀ item, (actedFor about (body item)).Sublist [item]) (items : List α) :
    (actedFor about (each body items)).Sublist items := by
  induction items with
  | nil => exact List.Sublist.refl []
  | cons first rest ih => exact actedFor_bind (own first) (fun _unit _returned => ih)

end ActedFor

end Traced

end Library
