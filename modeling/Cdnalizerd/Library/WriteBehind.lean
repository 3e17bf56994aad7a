/-
One source, and the copy that is kept of it.

A change of the source is noted as work, and the work is performed from the
front, with the source as it is then.  A change may be noted together with the one
before it.  Contents that do not count need no copy.
-/

import Cdnalizerd.Library.BoundedQueue
import Mathlib.Logic.Relation

namespace Library.WriteBehind

open BoundedQueue

inductive Work where
  | copyOver
  | remove
deriving DecidableEq

structure Copy (Content : Type) where
  source : Option Content
  copy : Option Content
  pending : List Work := []

variable {Content : Type} (counts : Content → Prop) [DecidablePred counts]

def perform (source copy : Option Content) : Work → Option Content
  | .copyOver =>
      match source with
      | some content => if counts content then some content else copy
      | none => copy
  | .remove => none

/-- The copy once the pending work is done, if the source stays as it is. -/
def Copy.eventual (state : Copy Content) : Option Content :=
  state.pending.foldl (perform counts state.source) state.copy

/-- What may happen to a source and its copy. A source may come without being
noted if its content does not count, and go if there is no copy. -/
inductive Step : Copy Content → Copy Content → Prop where
  | written (state : Copy Content) (content : Content) (pending : List Work)
      (noted : Gains state.pending .copyOver pending) :
      Step state { state with
        source := some content
        pending := pending }
  | removed (state : Copy Content) (pending : List Work)
      (noted : Gains state.pending .remove pending) :
      Step state { state with
        source := none
        pending := pending }
  | slippedIn (state : Copy Content) (content : Content) (trifling : ¬ counts content) :
      Step state { state with source := some content }
  | slippedOut (state : Copy Content) (uncopied : state.copy = none) :
      Step state { state with source := none }
  | skipped (state : Copy Content) (before after : List Work)
      (split : state.pending = before ++ .copyOver :: after)
      (trifling : ∀ content, state.source = some content → ¬ counts content) :
      Step state { state with pending := before ++ after }
  | performed (state : Copy Content) (work : Work) (rest : List Work)
      (split : state.pending = work :: rest) :
      Step state { state with
        copy := perform counts state.source state.copy work
        pending := rest }

/-- Contents that count are copied, and what is gone has no copy. -/
def Agrees (source copy : Option Content) : Prop :=
  (∀ content, source = some content → counts content → copy = some content) ∧
    (source = none → copy = none)

def Settling (state : Copy Content) : Prop :=
  Agrees counts state.source (state.eventual counts)

variable {counts} {state next : Copy Content}

theorem perform_of_trifling {source copy : Option Content}
    (trifling : ∀ content, source = some content → ¬ counts content) :
    perform counts source copy .copyOver = copy := by
  cases source with
  | none => rfl
  | some content => exact if_neg (trifling content rfl)

/-- Work that is performed again changes nothing. -/
theorem perform_perform (source copy : Option Content) (work : Work) :
    perform counts source (perform counts source copy work) work =
      perform counts source copy work := by
  cases work with
  | remove => rfl
  | copyOver =>
      cases source with
      | none => rfl
      | some content =>
          unfold perform
          dsimp only
          split
          · rfl
          · rfl

theorem foldl_perform_none (pending : List Work) :
    pending.foldl (perform counts none) none = none := by
  induction pending with
  | nil => rfl
  | cons work rest ih =>
      cases work with
      | copyOver => exact ih
      | remove => exact ih

/-- What is noted last decides. -/
theorem foldl_perform_of_noted (counts : Content → Prop) [DecidablePred counts]
    (source copy : Option Content) {pending before : List Work} {work : Work}
    (noted : Gains before work pending) :
    ∃ earlier, pending.foldl (perform counts source) copy =
      perform counts source earlier work := by
  obtain ⟨front, rfl⟩ := List.getLast?_eq_some_iff.mp noted.getLast?_eq
  refine ⟨front.foldl (perform counts source) copy, ?_⟩
  rw [List.foldl_append, List.foldl_cons, List.foldl_nil]

theorem Settling.step (settling : Settling counts state) (stepped : Step counts state next) :
    Settling counts next := by
  cases stepped with
  | written content pending noted =>
      constructor
      · intro kept same counted
        obtain rfl := Option.some.inj same
        obtain ⟨earlier, performed⟩ :=
          foldl_perform_of_noted counts (some content) state.copy noted
        exact performed.trans (if_pos counted)
      · intro absent
        cases absent
  | removed pending noted =>
      constructor
      · intro kept same
        cases same
      · intro _absent
        obtain ⟨earlier, performed⟩ := foldl_perform_of_noted counts none state.copy noted
        exact performed
  | slippedIn content trifling =>
      constructor
      · intro kept same counted
        obtain rfl := Option.some.inj same
        exact absurd counted trifling
      · intro absent
        cases absent
  | slippedOut uncopied =>
      constructor
      · intro kept same
        cases same
      · intro _absent
        unfold Copy.eventual
        dsimp only
        rw [uncopied]
        exact foldl_perform_none state.pending
  | skipped before after split trifling =>
      have same : Copy.eventual counts { state with pending := before ++ after } =
          Copy.eventual counts state := by
        unfold Copy.eventual
        rw [split, List.foldl_append, List.foldl_append, List.foldl_cons,
          perform_of_trifling trifling]
      unfold Settling
      rw [same]
      exact settling
  | performed work rest split =>
      have same : Copy.eventual counts { state with
          copy := perform counts state.source state.copy work
          pending := rest } = Copy.eventual counts state := by
        unfold Copy.eventual
        rw [split, List.foldl_cons]
      unfold Settling
      rw [same]
      exact settling

theorem Settling.run (settling : Settling counts state)
    (run : Relation.ReflTransGen (Step counts) state next) : Settling counts next := by
  induction run with
  | refl => exact settling
  | tail _earlier stepped ih => exact ih.step stepped

theorem Settling.agrees (settling : Settling counts state) (done : state.pending = []) :
    Agrees counts state.source state.copy := by
  unfold Settling Copy.eventual at settling
  rw [done] at settling
  exact settling

/-! ### Copying everything over -/

/-- At worst there is no copy yet: what is gone will have none, and what counts is
not removed last. -/
structure Pledged (counts : Content → Prop) [DecidablePred counts] (state : Copy Content) :
    Prop where
  gone : state.source = none → state.eventual counts = none
  last : ∀ content, state.source = some content → counts content →
    state.pending.getLast? ≠ some .remove

theorem Pledged.settling_of_gone (pledged : Pledged counts state) (absent : state.source = none) :
    Settling counts state := by
  constructor
  · intro content same
    cases absent.symm.trans same
  · exact fun _absent => pledged.gone absent

theorem Pledged.step (pledged : Pledged counts state) (stepped : Step counts state next) :
    Pledged counts next := by
  have settled := fun absent => (pledged.settling_of_gone absent).step stepped
  cases stepped with
  | written content pending noted =>
      constructor
      · intro absent
        cases absent
      · intro kept _same _counted
        rw [noted.getLast?_eq]
        intro impossible
        cases impossible
  | removed pending noted =>
      constructor
      · intro _absent
        obtain ⟨earlier, performed⟩ := foldl_perform_of_noted counts none state.copy noted
        exact performed
      · intro kept same
        cases same
  | slippedIn content trifling =>
      constructor
      · intro absent
        cases absent
      · intro kept same counted
        obtain rfl := Option.some.inj same
        exact absurd counted trifling
  | slippedOut uncopied =>
      constructor
      · intro _absent
        unfold Copy.eventual
        dsimp only
        rw [uncopied]
        exact foldl_perform_none state.pending
      · intro kept same
        cases same
  | skipped before after split trifling =>
      constructor
      · exact fun absent => (settled absent).2 absent
      · intro content same counted
        exact absurd counted (trifling content same)
  | performed work rest split =>
      constructor
      · exact fun absent => (settled absent).2 absent
      · intro content same counted
        have last := pledged.last content same counted
        rw [split] at last
        cases rest with
        | nil =>
            intro impossible
            cases impossible
        | cons later rest =>
            rw [List.getLast?_cons_cons] at last
            exact last

theorem Pledged.run (pledged : Pledged counts state)
    (run : Relation.ReflTransGen (Step counts) state next) : Pledged counts next := by
  induction run with
  | refl => exact pledged
  | tail _earlier stepped ih => exact ih.step stepped

end Library.WriteBehind
