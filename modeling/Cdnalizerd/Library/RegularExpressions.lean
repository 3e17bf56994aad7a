/-
Regular expressions with anchors and look-ahead, searched for in a subject.

An expression leads from a cursor in the subject to all cursors at which a
match of it may end.  In an open subject more may follow behind the last
symbol: a match that is found there rests on nothing but the symbols seen, and
is found in every longer subject.
-/

import Mathlib.Data.List.Basic

namespace Library.RegularExpressions

inductive Expression (α : Type) where
  | empty
  /-- A literal, a class of symbols or the wildcard. -/
  | symbol (accepts : α → Bool)
  | start
  | finish
  /-- A change between word symbols and others, or the lack of one. -/
  | boundary (isWord : α → Bool) (inverted : Bool)
  | ahead (inner : Expression α)
  | notAhead (inner : Expression α)
  | concat (first second : Expression α)
  | alternate (left right : Expression α)
  | star (inner : Expression α)

/-- A place in a subject: the symbols before it, last one first, and those after it. -/
structure Cursor (α : Type) where
  before : List α
  after : List α

variable {α : Type}

/-- The cursor itself, where a test of it succeeds. -/
def check (test : Bool) (cursor : Cursor α) : List (Cursor α) :=
  if test then [cursor] else []

theorem mem_check {test : Bool} {cursor next : Cursor α} :
    next ∈ check test cursor ↔ test = true ∧ next = cursor := by
  unfold check
  cases test with
  | false => simp
  | true => simp

/-- At most so many rounds, each of which must consume something. -/
def iterate (round : Cursor α → List (Cursor α)) : Nat → Cursor α → List (Cursor α)
  | 0, cursor => [cursor]
  | rounds + 1, cursor =>
      cursor :: (round cursor).flatMap (fun next =>
        if next.after.length < cursor.after.length then iterate round rounds next else [])

namespace Expression

/-- Where a match from the cursor may end, in a subject that is closed or open. -/
def run (closed : Bool) : Expression α → Cursor α → List (Cursor α)
  | .empty, cursor => [cursor]
  | .symbol accepts, cursor =>
      match cursor.after with
      | [] => []
      | item :: rest => check (accepts item) ⟨item :: cursor.before, rest⟩
  | .start, cursor => check cursor.before.isEmpty cursor
  | .finish, cursor => check (closed && cursor.after.isEmpty) cursor
  | .boundary isWord inverted, cursor =>
      let changes := cursor.before.head?.any isWord != cursor.after.head?.any isWord
      check ((closed || !cursor.after.isEmpty) && (changes != inverted)) cursor
  | .ahead inner, cursor => check (!(run closed inner cursor).isEmpty) cursor
  | .notAhead inner, cursor => check (closed && (run closed inner cursor).isEmpty) cursor
  | .concat first second, cursor => (run closed first cursor).flatMap (run closed second)
  | .alternate left right, cursor => run closed left cursor ++ run closed right cursor
  | .star inner, cursor => iterate (run closed inner) cursor.after.length cursor

def cursors : List α → List α → List (Cursor α)
  | before, [] => [⟨before, []⟩]
  | before, item :: rest => ⟨before, item :: rest⟩ :: cursors (item :: before) rest

def occurs (closed : Bool) (expression : Expression α) (subject : List α) : Bool :=
  (cursors [] subject).any (fun cursor => !(expression.run closed cursor).isEmpty)

def search (expression : Expression α) (subject : List α) : Bool :=
  expression.occurs true subject

def looksAtNoEnd : Expression α → Bool
  | .empty | .symbol _ | .start => true
  | .finish | .boundary _ _ | .notAhead _ => false
  | .ahead inner | .star inner => inner.looksAtNoEnd
  | .concat first second => first.looksAtNoEnd && second.looksAtNoEnd
  | .alternate left right => left.looksAtNoEnd && right.looksAtNoEnd

def literal [BEq α] (word : List α) : Expression α :=
  word.foldr (fun item rest => .concat (.symbol (fun other => other == item)) rest) .empty

end Expression

/-! ### Longer subjects -/

def Cursor.extend (cursor : Cursor α) (more : List α) : Cursor α where
  before := cursor.before
  after := cursor.after ++ more

section Iteration

variable {round other : Cursor α → List (Cursor α)} {cursor next : Cursor α} {more : List α}

theorem self_mem_iterate (rounds : Nat) : cursor ∈ iterate round rounds cursor := by
  cases rounds with
  | zero => exact List.mem_singleton_self cursor
  | succ rounds => exact List.mem_cons_self

theorem mem_iterate_extend {rounds : Nat}
    (each : ∀ cursor next, next ∈ round cursor → next.extend more ∈ other (cursor.extend more))
    {enough : Nat} (fewer : rounds ≤ enough) (member : next ∈ iterate round rounds cursor) :
    next.extend more ∈ iterate other enough (cursor.extend more) := by
  induction rounds generalizing cursor enough with
  | zero =>
      rw [List.mem_singleton.mp member]
      exact self_mem_iterate enough
  | succ rounds ih =>
      rcases List.mem_cons.mp member with same | later
      · rw [same]
        exact self_mem_iterate enough
      · obtain ⟨middle, first, rest⟩ := List.mem_flatMap.mp later
        cases enough with
        | zero => exact absurd fewer (Nat.not_succ_le_zero rounds)
        | succ enough =>
            by_cases shorter : middle.after.length < cursor.after.length
            · rw [if_pos shorter] at rest
              apply List.mem_cons_of_mem
              apply List.mem_flatMap.mpr
              refine ⟨middle.extend more, each cursor middle first, ?_⟩
              have consumed : (middle.extend more).after.length <
                  (cursor.extend more).after.length := by
                unfold Cursor.extend
                rw [List.length_append, List.length_append]
                omega
              rw [if_pos consumed]
              exact ih (Nat.le_of_succ_le_succ fewer) rest
            · rw [if_neg shorter] at rest
              cases rest

end Iteration

namespace Expression

theorem run_nonempty_iff {closed : Bool} {expression : Expression α} {cursor : Cursor α} :
    (!(expression.run closed cursor).isEmpty) = true ↔
      ∃ next, next ∈ expression.run closed cursor := by
  rw [Bool.not_eq_true', List.isEmpty_eq_false_iff_exists_mem]

/-- A match in an open subject is a match in every longer one, closed or open. -/
theorem run_extend (closed : Bool) (more : List α) (expression : Expression α)
    {cursor next : Cursor α} (member : next ∈ expression.run false cursor) :
    next.extend more ∈ expression.run closed (cursor.extend more) := by
  induction expression generalizing cursor next with
  | empty =>
      rw [List.mem_singleton.mp member]
      exact List.mem_singleton_self _
  | symbol accepts =>
      obtain ⟨before, after⟩ := cursor
      cases after with
      | nil => cases member
      | cons item rest =>
          obtain ⟨accepted, same⟩ := mem_check.mp member
          exact mem_check.mpr ⟨accepted, congrArg (Cursor.extend · more) same⟩
  | start =>
      obtain ⟨first, same⟩ := mem_check.mp member
      exact mem_check.mpr ⟨first, congrArg (Cursor.extend · more) same⟩
  | finish => cases member
  | boundary isWord inverted =>
      obtain ⟨before, after⟩ := cursor
      obtain ⟨changes, same⟩ := mem_check.mp member
      -- The symbol behind the cursor has been seen.
      cases after with
      | nil => cases changes
      | cons item rest =>
          refine mem_check.mpr ⟨?_, congrArg (Cursor.extend · more) same⟩
          exact (congrArg (· && _) (Bool.or_true closed)).trans changes
  | ahead inner ih =>
      obtain ⟨found, same⟩ := mem_check.mp member
      obtain ⟨last, matched⟩ := run_nonempty_iff.mp found
      exact mem_check.mpr ⟨run_nonempty_iff.mpr ⟨_, ih matched⟩,
        congrArg (Cursor.extend · more) same⟩
  | notAhead inner ih => cases member
  | concat first second ihFirst ihSecond =>
      obtain ⟨middle, before, behind⟩ := List.mem_flatMap.mp member
      exact List.mem_flatMap.mpr ⟨middle.extend more, ihFirst before, ihSecond behind⟩
  | alternate left right ihLeft ihRight =>
      apply List.mem_append.mpr
      rcases List.mem_append.mp member with onLeft | onRight
      · exact Or.inl (ihLeft onLeft)
      · exact Or.inr (ihRight onRight)
  | star inner ih =>
      have fewer : cursor.after.length ≤ (cursor.extend more).after.length := by
        unfold Cursor.extend
        rw [List.length_append]
        omega
      exact mem_iterate_extend (fun _cursor _next => ih) fewer member

theorem mem_cursors_extend (more : List α) {before subject : List α} {cursor : Cursor α}
    (member : cursor ∈ cursors before subject) :
    cursor.extend more ∈ cursors before (subject ++ more) := by
  induction subject generalizing before with
  | nil =>
      rw [List.mem_singleton.mp member]
      cases more with
      | nil => exact List.mem_singleton_self _
      | cons item rest => exact List.mem_cons_self
  | cons item rest ih =>
      rcases List.mem_cons.mp member with same | later
      · rw [same]
        exact List.mem_cons_self
      · exact List.mem_cons_of_mem _ (ih later)

theorem occurs_iff {closed : Bool} {expression : Expression α} {subject : List α} :
    expression.occurs closed subject = true ↔
      ∃ cursor ∈ cursors [] subject, ∃ next, next ∈ expression.run closed cursor := by
  unfold occurs
  rw [List.any_eq_true]
  exact exists_congr (fun cursor => and_congr_right (fun _member => run_nonempty_iff))

/-- What occurs in an open subject is found in every longer one. -/
theorem search_append {expression : Expression α} {subject : List α}
    (found : expression.occurs false subject = true) (more : List α) :
    expression.search (subject ++ more) = true := by
  obtain ⟨cursor, member, next, matched⟩ := occurs_iff.mp found
  exact occurs_iff.mpr ⟨cursor.extend more, mem_cursors_extend more member, next.extend more,
    run_extend true more expression matched⟩

/-- An expression that does not look for the end makes no difference between
closed and open subjects. -/
theorem run_of_looksAtNoEnd {expression : Expression α}
    (none : expression.looksAtNoEnd = true) :
    expression.run true = expression.run false := by
  induction expression with
  | empty => rfl
  | symbol accepts => rfl
  | start => rfl
  | finish => cases none
  | boundary isWord inverted => cases none
  | notAhead inner ih => cases none
  | ahead inner ih =>
      funext cursor
      unfold run
      rw [ih none]
  | star inner ih =>
      funext cursor
      unfold run
      rw [ih none]
  | concat first second ihFirst ihSecond =>
      obtain ⟨inFirst, inSecond⟩ := Bool.and_eq_true_iff.mp none
      funext cursor
      unfold run
      rw [ihFirst inFirst, ihSecond inSecond]
  | alternate left right ihLeft ihRight =>
      obtain ⟨inLeft, inRight⟩ := Bool.and_eq_true_iff.mp none
      funext cursor
      unfold run
      rw [ihLeft inLeft, ihRight inRight]

theorem occurs_of_looksAtNoEnd {expression : Expression α}
    (none : expression.looksAtNoEnd = true) (subject : List α) :
    expression.occurs false subject = expression.search subject := by
  unfold search occurs
  rw [run_of_looksAtNoEnd none]

end Expression

end Library.RegularExpressions
