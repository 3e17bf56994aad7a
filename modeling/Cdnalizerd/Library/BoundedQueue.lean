/-
Queues of bounded length, as a kernel keeps them for its reports.

What finds the queue full is dropped, and one item in its place says that something
was.  An item that is like the last one may be merged with it.
-/

import Mathlib.Data.List.Basic

namespace Library.BoundedQueue

variable {Item Other : Type}

section Push

variable [DecidableEq Item] (limit : Nat) (lost : Item)

def push (merges : Bool) (queue : List Item) (new : Item) : List Item :=
  if limit ≤ queue.length then
    if lost ∈ queue then queue else queue ++ [lost]
  else if merges = true ∧ queue.getLast? = some new then queue
  else queue ++ [new]

/-- Items one after the other, with whether each may be merged. -/
def pushAll : List Bool → List Item → List Item → List Item
  | _merges, queue, [] => queue
  | merges, queue, new :: rest =>
      pushAll merges.tail (push limit lost (merges.headD false) queue new) rest

end Push

/-! ### What is gained where there is room -/

/-- The new item is the last one, appended or merged. -/
def Gains (queue : List Item) (new : Item) (later : List Item) : Prop :=
  later = queue ++ [new] ∨ later = queue ∧ queue.getLast? = some new

inductive GainsAll : List Item → List Item → List Item → Prop where
  | nothing (queue : List Item) : GainsAll queue [] queue
  | more {queue middle later rest : List Item} {new : Item} (first : Gains queue new middle)
      (others : GainsAll middle rest later) : GainsAll queue (new :: rest) later

variable {queue later : List Item} {new : Item}

theorem Gains.getLast?_eq (gains : Gains queue new later) : later.getLast? = some new := by
  rcases gains with rfl | ⟨rfl, last⟩
  · exact List.getLast?_concat
  · exact last

theorem Gains.mem (gains : Gains queue new later) {item : Item} (member : item ∈ later) :
    item ∈ queue ∨ item = new := by
  rcases gains with rfl | ⟨rfl, _last⟩
  · exact (List.mem_append.mp member).imp_right List.mem_singleton.mp
  · exact Or.inl member

theorem Gains.subset (gains : Gains queue new later) : queue ⊆ later := by
  rcases gains with rfl | ⟨rfl, _last⟩
  · exact List.subset_append_left queue [new]
  · exact List.Subset.refl later

theorem Gains.new_mem (gains : Gains queue new later) : new ∈ later :=
  List.mem_of_getLast? gains.getLast?_eq

theorem Gains.pairwise (gains : Gains queue new later) {related : Item → Item → Prop}
    (before : queue.Pairwise related) (ahead : ∀ item ∈ queue, related item new) :
    later.Pairwise related := by
  rcases gains with rfl | ⟨rfl, _last⟩
  · refine List.pairwise_append.mpr ⟨before, List.pairwise_singleton related new, ?_⟩
    intro item member other single
    rw [List.mem_singleton.mp single]
    exact ahead item member
  · exact before

theorem Gains.length_le (gains : Gains queue new later) : later.length ≤ queue.length + 1 := by
  rcases gains with rfl | ⟨rfl, _last⟩
  · exact Nat.le_of_eq List.length_append
  · exact Nat.le_succ later.length

theorem Gains.append_left (gains : Gains queue new later) (front : List Item) :
    Gains (front ++ queue) new (front ++ later) := by
  rcases gains with rfl | ⟨rfl, last⟩
  · exact Or.inl (List.append_assoc front queue [new]).symm
  · right
    refine ⟨rfl, ?_⟩
    rw [List.getLast?_append, last, Option.some_or]

theorem Gains.filterMap_of_some (gains : Gains queue new later) {view : Item → Option Other}
    {seen : Other} (sees : view new = some seen) :
    Gains (queue.filterMap view) seen (later.filterMap view) := by
  rcases gains with rfl | ⟨rfl, last⟩
  · left
    rw [List.filterMap_append, List.filterMap_cons_some sees, List.filterMap_nil]
  · right
    obtain ⟨front, rfl⟩ := List.getLast?_eq_some_iff.mp last
    refine ⟨rfl, ?_⟩
    rw [List.filterMap_append, List.filterMap_cons_some sees, List.filterMap_nil,
      List.getLast?_concat]

theorem Gains.filterMap_of_none (gains : Gains queue new later) {view : Item → Option Other}
    (blind : view new = none) : later.filterMap view = queue.filterMap view := by
  rcases gains with rfl | ⟨rfl, _last⟩
  · rw [List.filterMap_append, List.filterMap_cons_none blind, List.filterMap_nil,
      List.append_nil]
  · rfl

theorem Gains.filter_of_kept (gains : Gains queue new later) {keeps : Item → Bool}
    (kept : keeps new = true) : Gains (queue.filter keeps) new (later.filter keeps) := by
  rcases gains with rfl | ⟨rfl, last⟩
  · left
    rw [List.filter_append, List.filter_cons_of_pos kept, List.filter_nil]
  · right
    obtain ⟨front, rfl⟩ := List.getLast?_eq_some_iff.mp last
    refine ⟨rfl, ?_⟩
    rw [List.filter_append, List.filter_cons_of_pos kept, List.filter_nil, List.getLast?_concat]

theorem GainsAll.filter_of_kept {items : List Item} (gains : GainsAll queue items later)
    {keeps : Item → Bool} (kept : ∀ item ∈ items, keeps item = true) :
    GainsAll (queue.filter keeps) items (later.filter keeps) := by
  induction gains with
  | nothing queue => exact .nothing _
  | more first _others ih =>
      exact .more (first.filter_of_kept (kept _ List.mem_cons_self))
        (ih fun item member => kept item (List.mem_cons_of_mem _ member))

theorem GainsAll.filter_of_dropped {items : List Item} (gains : GainsAll queue items later)
    {keeps : Item → Bool} (dropped : ∀ item ∈ items, keeps item = false) :
    later.filter keeps = queue.filter keeps := by
  induction gains with
  | nothing queue => rfl
  | @more queue middle _later _rest new first _others ih =>
      rw [ih fun item member => dropped item (List.mem_cons_of_mem _ member)]
      have blind := Bool.eq_false_iff.mp (dropped new List.mem_cons_self)
      rcases first with rfl | ⟨rfl, _last⟩
      · rw [List.filter_append, List.filter_cons_of_neg blind, List.filter_nil, List.append_nil]
      · rfl

theorem GainsAll.mem {items : List Item} (gains : GainsAll queue items later) {item : Item}
    (member : item ∈ later) : item ∈ queue ∨ item ∈ items := by
  induction gains with
  | nothing queue => exact Or.inl member
  | more first _others ih =>
      rcases ih member with early | listed
      · refine (first.mem early).imp_right ?_
        rintro rfl
        exact List.mem_cons_self
      · exact Or.inr (List.mem_cons_of_mem _ listed)

/-! ### Pushing is gaining -/

variable [DecidableEq Item] {limit : Nat} {lost : Item}

theorem push_of_room (room : queue.length < limit) (merges : Bool) (new : Item) :
    push limit lost merges queue new =
      if merges = true ∧ queue.getLast? = some new then queue else queue ++ [new] :=
  if_neg (Nat.not_le_of_lt room)

theorem gains_push (room : queue.length < limit) (merges : Bool) (new : Item) :
    Gains queue new (push limit lost merges queue new) := by
  rw [push_of_room room]
  split
  · rename_i merged
    exact Or.inr ⟨rfl, merged.2⟩
  · exact Or.inl rfl

theorem gainsAll_pushAll (merges : List Bool) {items : List Item}
    (room : queue.length + items.length ≤ limit) :
    GainsAll queue items (pushAll limit lost merges queue items) := by
  induction items generalizing merges queue with
  | nil => exact .nothing queue
  | cons new rest ih =>
      rw [List.length_cons] at room
      have first := @gains_push Item queue _ limit lost (by omega) (merges.headD false) new
      have longer := first.length_le
      exact .more first (ih merges.tail (by omega))

/-- Whatever is gained may have been pushed, if there was room. -/
theorem exists_pushAll {items : List Item} (gains : GainsAll queue items later)
    (room : queue.length + items.length ≤ limit) :
    ∃ merges, pushAll limit lost merges queue items = later := by
  induction gains with
  | nothing queue => exact ⟨[], rfl⟩
  | @more queue middle later rest new first _others ih =>
      rw [List.length_cons] at room
      have longer := first.length_le
      obtain ⟨merges, pushed⟩ := ih (by omega)
      have free : queue.length < limit := by omega
      rcases first with rfl | ⟨rfl, last⟩
      · have appended : push limit lost false queue new = queue ++ [new] := by
          rw [push_of_room free, if_neg (fun merged => Bool.false_ne_true merged.1)]
        refine ⟨false :: merges, ?_⟩
        rw [← pushed, ← appended]
        rfl
      · have merged : push limit lost true middle new = middle := by
          rw [push_of_room free, if_pos ⟨rfl, last⟩]
        refine ⟨true :: merges, ?_⟩
        rw [← pushed]
        exact congrArg (fun start => pushAll limit lost merges start rest) merged

end Library.BoundedQueue
