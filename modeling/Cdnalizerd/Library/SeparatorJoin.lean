/-
Joining strings with exactly one separator at each joint.

Joining trims the separators on the two sides of a joint and writes one.  A
part that consists of separators only therefore leaves no trace, and a part
with one separator at an end loses just that one.
-/

import Mathlib.Data.List.DropRight

namespace SeparatorJoin

variable {α : Type} [DecidableEq α] (sep : α)

def trimLeft (items : List α) : List α :=
  items.dropWhile (fun item => decide (item = sep))

def trimRight (items : List α) : List α :=
  items.rdropWhile (fun item => decide (item = sep))

def trim (items : List α) : List α :=
  trimRight sep (trimLeft sep items)

/-- At most one separator removed from the end. -/
def stripBack (items : List α) : List α :=
  if items.getLast? = some sep then items.dropLast else items

/-- At most one separator removed from the front. -/
def stripFront (items : List α) : List α :=
  if items.head? = some sep then items.tail else items

def joinOnce (left right : List α) : List α :=
  trimRight sep left ++ sep :: trimLeft sep right

/-- All parts appended to the first, with one separator at each joint. -/
def joinAll (first : List α) (parts : List (List α)) : List α :=
  parts.foldl (joinOnce sep) first

variable {sep}

/-! ### Trimming -/

theorem trimRight_concat_sep (items : List α) :
    trimRight sep (items ++ [sep]) = trimRight sep items :=
  List.rdropWhile_concat_pos _ _ _ (by simp)

theorem trimRight_concat_of_ne {item : α} (different : item ≠ sep) (items : List α) :
    trimRight sep (items ++ [item]) = items ++ [item] :=
  List.rdropWhile_concat_neg _ _ _ (by simp [different])

theorem trimRight_append_of_ne_nil {right : List α} (left : List α)
    (kept : trimRight sep right ≠ []) :
    trimRight sep (left ++ right) = left ++ trimRight sep right := by
  induction right using List.reverseRecOn with
  | nil => exact (kept rfl).elim
  | append_singleton items item ih =>
      by_cases same : item = sep
      · subst same
        rw [trimRight_concat_sep] at kept ⊢
        rw [← List.append_assoc, trimRight_concat_sep]
        exact ih kept
      · rw [trimRight_concat_of_ne same, ← List.append_assoc,
          trimRight_concat_of_ne same]

theorem trimRight_append_of_eq_nil {right : List α} (left : List α)
    (gone : trimRight sep right = []) :
    trimRight sep (left ++ right) = trimRight sep left := by
  induction right using List.reverseRecOn with
  | nil => rw [List.append_nil]
  | append_singleton items item ih =>
      by_cases same : item = sep
      · subst same
        rw [trimRight_concat_sep] at gone
        rw [← List.append_assoc, trimRight_concat_sep]
        exact ih gone
      · rw [trimRight_concat_of_ne same] at gone
        simp at gone

theorem trimRight_append_separators (items : List α) :
    ∃ separators, items = trimRight sep items ++ separators ∧
      ∀ item ∈ separators, item = sep := by
  induction items using List.reverseRecOn with
  | nil => exact ⟨[], rfl, by simp⟩
  | append_singleton items item ih =>
      by_cases same : item = sep
      · subst same
        obtain ⟨separators, split, all⟩ := ih
        refine ⟨separators ++ [item], ?_, ?_⟩
        · rw [trimRight_concat_sep, ← List.append_assoc, ← split]
        · intro other member
          rcases List.mem_append.mp member with earlier | last
          · exact all other earlier
          · exact List.mem_singleton.mp last
      · exact ⟨[], by rw [trimRight_concat_of_ne same, List.append_nil], by simp⟩

theorem trimRight_idem (items : List α) :
    trimRight sep (trimRight sep items) = trimRight sep items :=
  List.rdropWhile_idempotent _ _

theorem trimLeft_cons_sep (items : List α) :
    trimLeft sep (sep :: items) = trimLeft sep items := by
  simp [trimLeft]

theorem trimLeft_cons_of_ne {item : α} (different : item ≠ sep) (items : List α) :
    trimLeft sep (item :: items) = item :: items := by
  simp [trimLeft, different]

theorem trim_sublist (items : List α) : (trim sep items).Sublist items :=
  (List.rdropWhile_prefix _ _).sublist.trans (List.dropWhile_sublist _)

theorem trimRight_sublist (items : List α) : (trimRight sep items).Sublist items :=
  (List.rdropWhile_prefix _ _).sublist

/-! ### Stripping one separator -/

theorem stripBack_concat_sep (items : List α) : stripBack sep (items ++ [sep]) = items := by
  simp [stripBack]

theorem stripBack_of_getLast_ne {items : List α} (kept : items.getLast? ≠ some sep) :
    stripBack sep items = items :=
  if_neg kept

theorem trimRight_stripBack (items : List α) :
    trimRight sep (stripBack sep items) = trimRight sep items := by
  induction items using List.reverseRecOn with
  | nil => rfl
  | append_singleton items item ih =>
      by_cases same : item = sep
      · subst same
        rw [stripBack_concat_sep, trimRight_concat_sep]
      · rw [stripBack_of_getLast_ne (by simp [same])]

theorem trimLeft_stripFront (items : List α) :
    trimLeft sep (stripFront sep items) = trimLeft sep items := by
  cases items with
  | nil => rfl
  | cons item rest =>
      by_cases same : item = sep
      · subst same
        rw [trimLeft_cons_sep]
        simp [stripFront]
      · simp [stripFront, same]

theorem mem_stripBack_of_ne {item : α} (different : item ≠ sep) (items : List α) :
    item ∈ stripBack sep items ↔ item ∈ items := by
  induction items using List.reverseRecOn with
  | nil => rfl
  | append_singleton items last _ih =>
      by_cases same : last = sep
      · subst same
        rw [stripBack_concat_sep]
        simp [different]
      · rw [stripBack_of_getLast_ne (by simp [same])]

theorem mem_stripFront_of_ne {item : α} (different : item ≠ sep) (items : List α) :
    item ∈ stripFront sep items ↔ item ∈ items := by
  cases items with
  | nil => rfl
  | cons first rest =>
      by_cases same : first = sep
      · subst same
        simp [stripFront, different]
      · simp [stripFront, same]

theorem trim_strip (items : List α) :
    trim sep (stripFront sep (stripBack sep items)) = trim sep items := by
  unfold trim
  rw [trimLeft_stripFront]
  induction items using List.reverseRecOn with
  | nil => rfl
  | append_singleton items item _ih =>
      by_cases same : item = sep
      · subst same
        rw [stripBack_concat_sep]
        unfold trimLeft
        rw [List.dropWhile_append]
        split
        · rename_i gone
          rw [List.isEmpty_iff.mp gone]
          simp
        · exact (trimRight_concat_sep _).symm
      · rw [stripBack_of_getLast_ne (by simp [same])]

theorem stripFront_eq_nil_iff (items : List α) :
    stripFront sep items = [] ↔ items = [] ∨ items = [sep] := by
  cases items with
  | nil => simp [stripFront]
  | cons item rest =>
      by_cases same : item = sep
      · subst same
        simp [stripFront]
      · simp [stripFront, same]

theorem stripBack_eq_nil_iff (items : List α) :
    stripBack sep items = [] ↔ items = [] ∨ items = [sep] := by
  induction items using List.reverseRecOn with
  | nil => simp [stripBack]
  | append_singleton items item _ih =>
      by_cases same : item = sep
      · subst same
        rw [stripBack_concat_sep]
        simp
      · rw [stripBack_of_getLast_ne (by simp [same])]
        simp [List.append_eq_singleton_iff, same]

theorem stripBack_eq_singleton_iff (items : List α) :
    stripBack sep items = [sep] ↔ items = [sep, sep] := by
  induction items using List.reverseRecOn with
  | nil => simp [stripBack]
  | append_singleton items item _ih =>
      by_cases same : item = sep
      · subst same
        have split : [item, item] = [item] ++ [item] := rfl
        rw [stripBack_concat_sep, split, List.append_left_inj]
      · rw [stripBack_of_getLast_ne (by simp [same])]
        constructor <;> intro shape <;> have last := congrArg List.getLast? shape
        · exact absurd (by simpa using last) same
        · exact absurd (by simpa using last) same

/-- What is empty without a separator at either end. -/
theorem strip_eq_nil_iff (items : List α) :
    stripFront sep (stripBack sep items) = [] ↔
      items = [] ∨ items = [sep] ∨ items = [sep, sep] := by
  rw [stripFront_eq_nil_iff, stripBack_eq_nil_iff, stripBack_eq_singleton_iff, or_assoc]

theorem stripFront_sublist (items : List α) : (stripFront sep items).Sublist items := by
  unfold stripFront
  split
  · exact List.tail_sublist items
  · exact List.Sublist.refl items

theorem trim_strip_sublist (items : List α) :
    (trim sep items).Sublist (stripFront sep (stripBack sep items)) := by
  rw [← trim_strip]
  exact trim_sublist _

/-! ### Joining -/

theorem trimRight_joinOnce (left right : List α) :
    trimRight sep (joinOnce sep left right) =
      if trim sep right = [] then trimRight sep left
      else trimRight sep left ++ sep :: trim sep right := by
  have shape : joinOnce sep left right =
      trimRight sep left ++ [sep] ++ trimLeft sep right := by
    simp [joinOnce]
  rw [shape]
  split
  · rename_i gone
    rw [trimRight_append_of_eq_nil _ gone, trimRight_concat_sep, trimRight_idem]
  · rename_i kept
    rw [trimRight_append_of_ne_nil _ kept, List.append_assoc]
    rfl

theorem joinAll_three {first second third last : List α}
    (secondKept : trim sep second ≠ []) (thirdKept : trim sep third ≠ []) :
    joinAll sep first [second, third, last] =
      trimRight sep first ++ sep :: (trim sep second ++ sep ::
        (trim sep third ++ sep :: trimLeft sep last)) := by
  change trimRight sep (joinOnce sep (joinOnce sep first second) third) ++
    sep :: trimLeft sep last = _
  rw [trimRight_joinOnce, if_neg thirdKept, trimRight_joinOnce, if_neg secondKept]
  simp only [List.append_assoc, List.cons_append]

/-- The join always continues the trimmed first part with a separator, and it
is no longer than its trimmed parts, shorter when a middle part vanishes. -/
theorem joinAll_three_bound (first second third last : List α) :
    (∃ rest, joinAll sep first [second, third, last] = trimRight sep first ++ sep :: rest) ∧
      (joinAll sep first [second, third, last]).length +
          (if trim sep second = [] then 1 else 0) + (if trim sep third = [] then 1 else 0) ≤
        (trimRight sep first).length + (trim sep second).length +
          (trim sep third).length + (trimLeft sep last).length + 3 := by
  have shape : joinAll sep first [second, third, last] =
      trimRight sep (joinOnce sep (joinOnce sep first second) third) ++
        sep :: trimLeft sep last := rfl
  rw [shape, trimRight_joinOnce, trimRight_joinOnce]
  by_cases secondGone : trim sep second = []
  · by_cases thirdGone : trim sep third = []
    · rw [if_pos secondGone, if_pos thirdGone, if_pos secondGone, if_pos thirdGone]
      refine ⟨⟨_, rfl⟩, ?_⟩
      simp only [List.length_append, List.length_cons]
      omega
    · rw [if_pos secondGone, if_neg thirdGone, if_pos secondGone, if_neg thirdGone]
      refine ⟨⟨trim sep third ++ sep :: trimLeft sep last, by simp⟩, ?_⟩
      simp only [List.length_append, List.length_cons]
      omega
  · by_cases thirdGone : trim sep third = []
    · rw [if_neg secondGone, if_pos thirdGone, if_neg secondGone, if_pos thirdGone]
      refine ⟨⟨trim sep second ++ sep :: trimLeft sep last, by simp⟩, ?_⟩
      simp only [List.length_append, List.length_cons]
      omega
    · rw [if_neg secondGone, if_neg thirdGone, if_neg secondGone, if_neg thirdGone]
      refine ⟨⟨trim sep second ++ sep :: (trim sep third ++ sep :: trimLeft sep last),
        by simp⟩, ?_⟩
      simp only [List.length_append, List.length_cons]
      omega

/-! ### Separators at a joint -/

def countBefore (sep : α) (items : List α) : Nat :=
  (items.takeWhile (fun item => decide (item = sep))).length

def countBehind (sep : α) (items : List α) : Nat :=
  (items.rtakeWhile (fun item => decide (item = sep))).length

theorem replicate_append_trimLeft (items : List α) :
    List.replicate (countBefore sep items) sep ++ trimLeft sep items = items := by
  have separators : items.takeWhile (fun item => decide (item = sep)) =
      List.replicate (countBefore sep items) sep := by
    refine List.eq_replicate_iff.mpr ⟨rfl, ?_⟩
    intro item member
    simpa using List.mem_takeWhile_imp member
  rw [← separators]
  exact List.takeWhile_append_dropWhile

theorem trimRight_append_replicate (items : List α) :
    trimRight sep items ++ List.replicate (countBehind sep items) sep = items := by
  have separators : items.rtakeWhile (fun item => decide (item = sep)) =
      List.replicate (countBehind sep items) sep := by
    refine List.eq_replicate_iff.mpr ⟨rfl, ?_⟩
    intro item member
    simpa using List.mem_rtakeWhile_imp member
  rw [← separators]
  exact List.rdropWhile_append_rtakeWhile

theorem length_trimLeft (items : List α) :
    countBefore sep items + (trimLeft sep items).length = items.length := by
  have lengths := congrArg List.length (@replicate_append_trimLeft _ _ sep items)
  rwa [List.length_append, List.length_replicate] at lengths

theorem length_trimRight (items : List α) :
    (trimRight sep items).length + countBehind sep items = items.length := by
  have lengths := congrArg List.length (@trimRight_append_replicate _ _ sep items)
  rwa [List.length_append, List.length_replicate] at lengths

theorem countBefore_pos_iff (items : List α) :
    0 < countBefore sep items ↔ items.head? = some sep := by
  cases items with
  | nil => simp [countBefore]
  | cons item items =>
      by_cases same : item = sep
      · simp [countBefore, same]
      · simp [countBefore, same]

theorem countBehind_pos_iff (items : List α) :
    0 < countBehind sep items ↔ items.getLast? = some sep := by
  induction items using List.reverseRecOn with
  | nil => simp [countBehind]
  | append_singleton items item _ih =>
      by_cases same : item = sep
      · simp [countBehind, same]
      · simp [countBehind, same]

theorem length_joinOnce (left right : List α) :
    (joinOnce sep left right).length + countBehind sep left + countBefore sep right =
      left.length + right.length + 1 := by
  have leftLength := @length_trimRight _ _ sep left
  have rightLength := @length_trimLeft _ _ sep right
  unfold joinOnce
  rw [List.length_append, List.length_cons]
  omega

theorem joinOnce_of_none {left right : List α} (noneBehind : countBehind sep left = 0)
    (noneBefore : countBefore sep right = 0) : joinOnce sep left right = left ++ sep :: right := by
  have leftSplit := @trimRight_append_replicate _ _ sep left
  have rightSplit := @replicate_append_trimLeft _ _ sep right
  rw [noneBehind, List.replicate_zero, List.append_nil] at leftSplit
  rw [noneBefore, List.replicate_zero, List.nil_append] at rightSplit
  unfold joinOnce
  rw [leftSplit, rightSplit]

theorem joinOnce_of_one {left right : List α}
    (single : countBehind sep left + countBefore sep right = 1) :
    joinOnce sep left right = left ++ right := by
  have leftSplit := @trimRight_append_replicate _ _ sep left
  have rightSplit := @replicate_append_trimLeft _ _ sep right
  unfold joinOnce
  rcases Nat.add_eq_one_iff.mp single with ⟨noneBehind, oneBefore⟩ | ⟨oneBehind, noneBefore⟩
  · rw [noneBehind, List.replicate_zero, List.append_nil] at leftSplit
    rw [oneBefore, List.replicate_one, List.singleton_append] at rightSplit
    rw [leftSplit, rightSplit]
  · rw [oneBehind, List.replicate_one] at leftSplit
    rw [noneBefore, List.replicate_zero, List.nil_append] at rightSplit
    rw [rightSplit, ← List.singleton_append, ← List.append_assoc, leftSplit]

theorem trimRight_ne_nil {items : List α} (kept : trimLeft sep items ≠ []) :
    trimRight sep items ≠ [] := by
  intro gone
  apply kept
  have separators := List.rdropWhile_eq_nil_iff.mp gone
  exact List.dropWhile_eq_nil_iff.mpr separators

theorem countBehind_append {right : List α} (left : List α) (kept : trimLeft sep right ≠ []) :
    countBehind sep (left ++ right) = countBehind sep right := by
  have whole := @length_trimRight _ _ sep (left ++ right)
  have part := @length_trimRight _ _ sep right
  rw [trimRight_append_of_ne_nil left (trimRight_ne_nil kept), List.length_append,
    List.length_append] at whole
  omega

/-- A joint with nothing but separators behind it ends in its one separator. -/
theorem countBehind_joinOnce (left right : List α) :
    countBehind sep (joinOnce sep left right) =
      if trimLeft sep right = [] then 1 else countBehind sep right := by
  unfold joinOnce
  split
  · rename_i gone
    have whole := @length_trimRight _ _ sep (trimRight sep left ++ [sep])
    rw [trimRight_concat_sep, trimRight_idem, List.length_append] at whole
    rw [gone]
    exact Nat.add_left_cancel whole
  · rename_i kept
    have idempotent : trimLeft sep (trimLeft sep right) = trimLeft sep right :=
      List.dropWhile_idempotent _ _
    have split := @replicate_append_trimLeft _ _ sep right
    rw [← List.singleton_append, ← List.append_assoc,
      countBehind_append _ (by rw [idempotent]; exact kept)]
    conv => rhs; rw [← split]
    exact (countBehind_append _ (by rw [idempotent]; exact kept)).symm

/-! ### Joining with a separator behind every part -/

omit [DecidableEq α] in
theorem flatMap_concat_separator {parts : List (List α)} (nonempty : parts ≠ []) :
    parts.flatMap (fun part => part ++ [sep]) = [sep].intercalate parts ++ [sep] := by
  induction parts with
  | nil => exact (nonempty rfl).elim
  | cons part rest ih =>
      rw [List.flatMap_cons]
      by_cases last : rest = []
      · subst last
        rw [List.flatMap_nil, List.append_nil, List.intercalate_singleton]
      · rw [ih last, List.intercalate_cons_of_ne_nil last]
        simp only [List.append_assoc]

omit [DecidableEq α] in
theorem intercalate_concat (parts : List (List α)) (last : List α) :
    [sep].intercalate (parts ++ [last]) = parts.flatMap (fun part => part ++ [sep]) ++ last := by
  have joined := @flatMap_concat_separator _ sep (parts ++ [last]) (by simp)
  rw [List.flatMap_append, List.flatMap_singleton, ← List.append_assoc] at joined
  exact (List.append_cancel_right joined).symm

omit [DecidableEq α] in
theorem length_intercalate (parts : List (List α)) :
    ([sep].intercalate parts).length = parts.flatten.length + (parts.length - 1) := by
  induction parts with
  | nil => rfl
  | cons part rest ih =>
      by_cases last : rest = []
      · subst last
        simp
      · have positive := List.length_pos_iff.mpr last
        rw [List.intercalate_cons_of_ne_nil last]
        simp only [List.length_append, List.flatten_cons, List.length_cons, List.length_nil,
          ih]
        omega

omit [DecidableEq α] in
theorem flatten_filter_ne_nil (parts : List (List α)) :
    (parts.filter (· ≠ [])).flatten = parts.flatten := by
  induction parts with
  | nil => rfl
  | cons part rest ih =>
      by_cases empty : part = []
      · subst empty
        simpa using ih
      · simpa [empty] using ih

omit [DecidableEq α] in
/-- An empty part leaves a separator behind, unless it is the only part. -/
theorem intercalate_eq_filter_iff {parts : List (List α)} (nonempty : parts ≠ []) :
    [sep].intercalate parts = [sep].intercalate (parts.filter (· ≠ [])) ↔
      ([] ∈ parts → parts = [[]]) := by
  constructor
  · intro same member
    have lengths := congrArg List.length same
    rw [length_intercalate, length_intercalate, flatten_filter_ne_nil] at lengths
    have fewer : (parts.filter (· ≠ [])).length < parts.length := by
      apply List.length_filter_lt_length_iff_exists.mpr
      exact ⟨[], member, by simp⟩
    have single : parts.length = 1 := by
      have positive := List.length_pos_iff.mpr nonempty
      omega
    obtain ⟨part, rfl⟩ := List.length_eq_one_iff.mp single
    rw [List.mem_singleton.mp member]
  · intro alone
    by_cases member : [] ∈ parts
    · rw [alone member]
      simp
    · have kept : parts.filter (· ≠ []) = parts := by
        apply List.filter_eq_self.mpr
        intro part present
        apply decide_eq_true
        rintro rfl
        exact member present
      rw [kept]

end SeparatorJoin
