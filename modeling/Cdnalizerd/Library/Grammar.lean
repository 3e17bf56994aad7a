/-
Regular grammar rules as languages.

The operators are those of a scanner generator: one symbol of a class, a fixed
word, an optional rule and one or more repetitions; alternatives, sequences and
the star are the operators of `Language`.  The lemmas say what the repetition of
a class reads, and how a rule grows by one symbol.
-/

import Mathlib.Computability.Language

namespace Grammar

open Computability

variable {symbol : Type}

def oneOf (member : symbol → Bool) : Language symbol :=
  {word | ∃ only, member only = true ∧ word = [only]}

def literal (word : List symbol) : Language symbol :=
  {word}

def optional (rule : Language symbol) : Language symbol :=
  1 + rule

def plus (rule : Language symbol) : Language symbol :=
  rule * rule∗

theorem mem_oneOf {member : symbol → Bool} {word : List symbol} :
    word ∈ oneOf member ↔ ∃ only, member only = true ∧ word = [only] :=
  Iff.rfl

theorem mem_literal {word read : List symbol} : read ∈ literal word ↔ read = word :=
  Iff.rfl

theorem mem_optional {rule : Language symbol} {word : List symbol} :
    word ∈ optional rule ↔ word = [] ∨ word ∈ rule :=
  Iff.rfl

theorem singleton_mem_oneOf {member : symbol → Bool} {only : symbol}
    (admitted : member only = true) : [only] ∈ oneOf member :=
  ⟨only, admitted, rfl⟩

theorem mem_optional_of_mem {rule : Language symbol} {word : List symbol}
    (read : word ∈ rule) : word ∈ optional rule :=
  Or.inr read

theorem nil_mem_optional (rule : Language symbol) : [] ∈ optional rule :=
  Or.inl rfl

/-! ### Repetitions of a class -/

section Classes

variable {member other : symbol → Bool}

theorem mem_star_oneOf {word : List symbol} :
    word ∈ (oneOf member)∗ ↔ ∀ only ∈ word, member only = true := by
  constructor
  · intro read
    obtain ⟨pieces, rfl, each⟩ := Language.mem_kstar.mp read
    intro only present
    obtain ⟨piece, inPieces, inPiece⟩ := List.mem_flatten.mp present
    obtain ⟨single, admitted, rfl⟩ := each piece inPieces
    rw [List.mem_singleton.mp inPiece]
    exact admitted
  · intro every
    induction word with
    | nil => exact Language.nil_mem_kstar _
    | cons first rest ih =>
        rw [← Language.one_add_self_mul_kstar_eq_kstar]
        apply Or.inr
        exact Language.append_mem_mul (singleton_mem_oneOf (every first List.mem_cons_self))
          (ih fun only present => every only (List.mem_cons_of_mem first present))

theorem mem_plus_oneOf {word : List symbol} :
    word ∈ plus (oneOf member) ↔ word ≠ [] ∧ ∀ only ∈ word, member only = true := by
  constructor
  · intro read
    obtain ⟨_, ⟨first, admitted, rfl⟩, rest, inRest, rfl⟩ := Language.mem_mul.mp read
    refine ⟨List.cons_ne_nil _ _, ?_⟩
    intro only present
    rcases List.mem_cons.mp present with rfl | later
    · exact admitted
    · exact mem_star_oneOf.mp inRest only later
  · rintro ⟨nonempty, every⟩
    obtain ⟨first, rest, rfl⟩ := List.exists_cons_of_ne_nil nonempty
    exact Language.append_mem_mul (singleton_mem_oneOf (every first List.mem_cons_self))
      (mem_star_oneOf.mpr fun only present => every only (List.mem_cons_of_mem first present))

theorem oneOf_add_oneOf : oneOf member + oneOf other =
    oneOf fun only => member only || other only := by
  ext word
  rw [Language.mem_add, mem_oneOf, mem_oneOf, mem_oneOf]
  constructor
  · rintro (⟨only, admitted, rfl⟩ | ⟨only, admitted, rfl⟩)
    · exact ⟨only, by rw [admitted, Bool.true_or], rfl⟩
    · exact ⟨only, by rw [admitted, Bool.or_true], rfl⟩
  · rintro ⟨only, admitted, rfl⟩
    rcases Bool.or_eq_true_iff.mp admitted with left | right
    · exact Or.inl ⟨only, left, rfl⟩
    · exact Or.inr ⟨only, right, rfl⟩

theorem literal_singleton [BEq symbol] [LawfulBEq symbol] (only : symbol) :
    literal [only] = oneOf fun read => read == only := by
  ext word
  rw [mem_literal, mem_oneOf]
  constructor
  · rintro rfl
    exact ⟨only, beq_self_eq_true only, rfl⟩
  · rintro ⟨read, same, rfl⟩
    rw [eq_of_beq same]

/-- Segments of a class between separators read the class with the separator
added. -/
theorem mem_segments {separator : symbol} {word : List symbol} [BEq symbol] [LawfulBEq symbol] :
    word ∈ (oneOf member)∗ * (literal [separator] * (oneOf member)∗)∗ ↔
      ∀ only ∈ word, (member only || only == separator) = true := by
  constructor
  · intro read only present
    obtain ⟨first, inFirst, rest, inRest, rfl⟩ := Language.mem_mul.mp read
    rcases List.mem_append.mp present with early | late
    · rw [mem_star_oneOf.mp inFirst only early, Bool.true_or]
    · obtain ⟨pieces, rfl, each⟩ := Language.mem_kstar.mp inRest
      obtain ⟨piece, inPieces, inPiece⟩ := List.mem_flatten.mp late
      obtain ⟨opening, isSeparator, segment, inSegment, rfl⟩ :=
        Language.mem_mul.mp (each piece inPieces)
      rw [mem_literal.mp isSeparator] at inPiece
      rcases List.mem_cons.mp inPiece with rfl | later
      · rw [beq_self_eq_true, Bool.or_true]
      · rw [mem_star_oneOf.mp inSegment only later, Bool.true_or]
  · intro every
    induction word with
    | nil =>
        exact Language.append_mem_mul (Language.nil_mem_kstar _) (Language.nil_mem_kstar _)
    | cons first rest ih =>
        obtain ⟨segment, inSegment, later, inLater, joined⟩ := Language.mem_mul.mp
          (ih fun only present => every only (List.mem_cons_of_mem first present))
        rw [← joined]
        rcases Bool.or_eq_true_iff.mp (every first List.mem_cons_self) with admitted | separates
        · refine Language.append_mem_mul (a := first :: segment) ?_ inLater
          apply mem_star_oneOf.mpr
          intro only present
          rcases List.mem_cons.mp present with rfl | inside
          · exact admitted
          · exact mem_star_oneOf.mp inSegment only inside
        · obtain rfl := eq_of_beq separates
          obtain ⟨pieces, rfl, each⟩ := Language.mem_kstar.mp inLater
          refine Language.append_mem_mul (a := []) (Language.nil_mem_kstar _) ?_
          refine Language.mem_kstar.mpr ⟨(first :: segment) :: pieces, rfl, ?_⟩
          intro piece inPieces
          rcases List.mem_cons.mp inPieces with rfl | inOthers
          · exact Language.append_mem_mul (mem_literal.mpr rfl) inSegment
          · exact each piece inOthers

/-! ### Growing a rule by one symbol -/

theorem plus_of_oneOf {only : symbol} (admitted : member only = true) :
    [only] ∈ plus (oneOf member) := by
  apply mem_plus_oneOf.mpr
  refine ⟨List.cons_ne_nil _ _, ?_⟩
  intro found present
  rw [List.mem_singleton.mp present]
  exact admitted

theorem snoc_mem_plus {front : Language symbol} {word : List symbol} {only : symbol}
    (read : word ∈ front * plus (oneOf member)) (admitted : member only = true) :
    word ++ [only] ∈ front * plus (oneOf member) := by
  obtain ⟨before, inFront, repeated, inPlus, rfl⟩ := Language.mem_mul.mp read
  rw [List.append_assoc]
  apply Language.append_mem_mul inFront
  obtain ⟨nonempty, every⟩ := mem_plus_oneOf.mp inPlus
  apply mem_plus_oneOf.mpr
  refine ⟨by simp, ?_⟩
  intro found present
  rcases List.mem_append.mp present with early | last
  · exact every found early
  · rw [List.mem_singleton.mp last]
    exact admitted

theorem snoc_mem_star {front : Language symbol} {word : List symbol} {only : symbol}
    (read : word ∈ front * (oneOf member)∗) (admitted : member only = true) :
    word ++ [only] ∈ front * (oneOf member)∗ := by
  obtain ⟨before, inFront, repeated, inStar, rfl⟩ := Language.mem_mul.mp read
  rw [List.append_assoc]
  apply Language.append_mem_mul inFront
  apply mem_star_oneOf.mpr
  intro found present
  rcases List.mem_append.mp present with early | last
  · exact mem_star_oneOf.mp inStar found early
  · rw [List.mem_singleton.mp last]
    exact admitted

end Classes

/-! ### Larger rules -/

theorem mul_mono {front wider back longer : Language symbol} {word : List symbol}
    (inFront : ∀ read ∈ front, read ∈ wider) (inBack : ∀ read ∈ back, read ∈ longer)
    (read : word ∈ front * back) : word ∈ wider * longer := by
  obtain ⟨before, isFront, after, isBack, rfl⟩ := Language.mem_mul.mp read
  exact Language.append_mem_mul (inFront before isFront) (inBack after isBack)

theorem plus_mono {member other : symbol → Bool}
    (wider : ∀ only, member only = true → other only = true) {word : List symbol}
    (read : word ∈ plus (oneOf member)) : word ∈ plus (oneOf other) := by
  obtain ⟨nonempty, every⟩ := mem_plus_oneOf.mp read
  exact mem_plus_oneOf.mpr ⟨nonempty, fun only present => wider only (every only present)⟩

/-- A component that a mark introduces, or nothing at all. -/
def marked (mark : List symbol) : Option (List symbol) → List symbol
  | none => []
  | some word => mark ++ word

theorem mem_optional_marked {mark word : List symbol} {rule : Language symbol} :
    word ∈ optional (literal mark * rule) ↔
      ∃ component : Option (List symbol),
        (∀ read, component = some read → read ∈ rule) ∧ marked mark component = word := by
  constructor
  · rintro (absent | present)
    · refine ⟨none, ?_, absent.symm⟩
      intro read impossible
      cases impossible
    · obtain ⟨opening, isMark, read, inRule, rfl⟩ := Language.mem_mul.mp present
      refine ⟨some read, ?_, by rw [mem_literal.mp isMark]; rfl⟩
      intro other same
      obtain rfl := Option.some.inj same
      exact inRule
  · rintro ⟨component, inRule, rfl⟩
    cases component with
    | none => exact nil_mem_optional _
    | some read =>
        exact mem_optional_of_mem (Language.append_mem_mul (mem_literal.mpr rfl) (inRule read rfl))

theorem mul_optional_of_mem {front rule : Language symbol} {word : List symbol}
    (read : word ∈ front) : word ∈ front * optional rule := by
  have appended := Language.append_mem_mul read (nil_mem_optional rule)
  rwa [List.append_nil] at appended

end Grammar
