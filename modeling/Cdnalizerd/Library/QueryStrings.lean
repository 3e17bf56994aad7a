/-
Query strings: split at two separators, the pieces percent-decoded.

What a query string gives has a weight that is read off the decoded string, so
nothing that adds a piece can go unnoticed, in whatever order the pieces are
compared.
-/

import Cdnalizerd.Library.PercentCoding

namespace PercentCoding

/-- The parameters between the outer separators, each split at the inner one. -/
def parameters (outer inner : UInt8) (query : List UInt8) : List (List (List UInt8)) :=
  (query.splitOn outer).map fun parameter => (parameter.splitOn inner).map decode

/-! ### Separators -/

section Separators

variable {outer inner : UInt8}

theorem splitOn_eq_singleton_iff {bytes piece : List UInt8} :
    bytes.splitOn outer = [piece] ↔ outer ∉ bytes ∧ bytes = piece := by
  constructor
  · intro single
    have whole : [outer].intercalate (bytes.splitOn outer) = bytes :=
      List.intercalate_splitOn outer
    rw [single, List.intercalate_singleton] at whole
    refine ⟨?_, whole.symm⟩
    intro member
    obtain ⟨before, after, rfl⟩ := List.append_of_mem member
    rw [List.splitOn_append_cons_self] at single
    have lengths := congrArg List.length single
    have beforeSome := List.length_pos_iff.mpr (List.splitOn_ne_nil outer before)
    have afterSome := List.length_pos_iff.mpr (List.splitOn_ne_nil outer after)
    simp only [List.length_append, List.length_singleton] at lengths
    omega
  · intro ⟨absent, same⟩
    rw [List.splitOn_eq_singleton absent, same]

theorem parameters_append (before after : List UInt8) :
    parameters outer inner (before ++ outer :: after) =
      parameters outer inner before ++ parameters outer inner after := by
  unfold parameters
  rw [List.splitOn_append_cons_self, List.map_append]

/-- A key with its value is read back exactly when the value holds no separator
and nothing that decoding changes. -/
theorem parameters_pair_iff {key value : List UInt8} (outside : outer ∉ key)
    (inside : inner ∉ key) (plain : decode key = key) (different : outer ≠ inner) :
    parameters outer inner (key ++ inner :: value) = [[key, value]] ↔
      outer ∉ value ∧ inner ∉ value ∧ decode value = value := by
  have pieces : ((key ++ inner :: value).splitOn inner).map decode =
      key :: (value.splitOn inner).map decode := by
    rw [List.splitOn_append_cons_self, List.splitOn_eq_singleton inside, List.map_append,
      List.map_singleton, plain]
    rfl
  have whole : outer ∉ key ++ inner :: value ↔ outer ∉ value := by
    simp [outside, different]
  unfold parameters
  constructor
  · intro read
    obtain ⟨parameter, single, split⟩ := List.map_eq_singleton_iff.mp read
    obtain ⟨absent, rfl⟩ := splitOn_eq_singleton_iff.mp single
    rw [pieces] at split
    obtain ⟨piece, alone, decoded⟩ := List.map_eq_singleton_iff.mp (List.cons.inj split).2
    obtain ⟨innerAbsent, rfl⟩ := splitOn_eq_singleton_iff.mp alone
    exact ⟨whole.mp absent, innerAbsent, decoded⟩
  · intro ⟨outerAbsent, innerAbsent, decoded⟩
    rw [List.splitOn_eq_singleton (whole.mpr outerAbsent), List.map_singleton, pieces,
      List.splitOn_eq_singleton innerAbsent, List.map_singleton, decoded]

end Separators

/-! ### Weights -/

theorem length_decode_le (bytes : List UInt8) : (decode bytes).length ≤ bytes.length := by
  induction size : bytes.length using Nat.strongRecOn generalizing bytes with
  | _ length ih =>
      cases bytes with
      | nil => exact Nat.zero_le _
      | cons byte rest =>
          rw [List.length_cons] at size
          rcases decode_cases byte rest with
            ⟨high, low, left, right, tail, rfl, rfl, _atHigh, _atLow, decoded⟩ | decoded
          · rw [List.length_cons, List.length_cons] at size
            have shorter := ih tail.length (by omega) tail rfl
            rw [decoded, List.length_cons]
            omega
          · have shorter := ih rest.length (by omega) rest rfl
            rw [decoded, List.length_cons]
            omega

def pieceWeight (pieces : List (List UInt8)) : Nat :=
  pieces.flatten.length + pieces.length

def weight (read : List (List (List UInt8))) : Nat :=
  pieceWeight read.flatten

theorem pieceWeight_cons (piece : List UInt8) (pieces : List (List UInt8)) :
    pieceWeight (piece :: pieces) = piece.length + 1 + pieceWeight pieces := by
  unfold pieceWeight
  rw [List.flatten_cons, List.length_append, List.length_cons]
  omega

theorem pieceWeight_append (left right : List (List UInt8)) :
    pieceWeight (left ++ right) = pieceWeight left + pieceWeight right := by
  unfold pieceWeight
  rw [List.flatten_append, List.length_append, List.length_append]
  omega

theorem weight_pair (key value : List UInt8) :
    weight [[key, value]] = key.length + value.length + 2 := by
  simp only [weight, pieceWeight, List.flatten_cons, List.flatten_nil, List.append_nil,
    List.length_append, List.length_cons, List.length_nil]

theorem weight_append (left right : List (List (List UInt8))) :
    weight (left ++ right) = weight left + weight right := by
  unfold weight
  rw [List.flatten_append, pieceWeight_append]

theorem weight_perm {left right : List (List (List UInt8))} (same : left.Perm right) :
    weight left = weight right := by
  have pieces := same.flatten
  unfold weight pieceWeight
  rw [pieces.length_eq, pieces.flatten.length_eq]

theorem pieceWeight_decoded_intercalate {separator : UInt8} (separates : Separator separator)
    {pieces : List (List UInt8)} (some_piece : pieces ≠ []) :
    pieceWeight (pieces.map decode) =
      (decode ([separator].intercalate pieces)).length + 1 := by
  induction pieces with
  | nil => exact absurd rfl some_piece
  | cons first rest ih =>
      rw [List.map_cons, pieceWeight_cons]
      cases rest with
      | nil =>
          rw [List.intercalate_singleton]
          rfl
      | cons second rest =>
          rw [ih (List.cons_ne_nil second rest), List.intercalate_cons_cons,
            List.append_assoc, List.singleton_append, decode_append_separator separates,
            List.length_append, List.length_cons]
          omega

theorem pieceWeight_decoded {separator : UInt8} (separates : Separator separator)
    (bytes : List UInt8) :
    pieceWeight ((bytes.splitOn separator).map decode) = (decode bytes).length + 1 := by
  rw [pieceWeight_decoded_intercalate separates (List.splitOn_ne_nil separator bytes),
    List.intercalate_splitOn]

theorem weight_parameters {outer inner : UInt8} (outerSeparates : Separator outer)
    (innerSeparates : Separator inner) (query : List UInt8) :
    weight (parameters outer inner query) = (decode query).length + 1 := by
  rw [← pieceWeight_decoded outerSeparates query]
  unfold weight parameters
  induction query.splitOn outer with
  | nil => rfl
  | cons parameter rest ih =>
      rw [List.map_cons, List.flatten_cons, pieceWeight_append, ih, List.map_cons,
        pieceWeight_cons, pieceWeight_decoded innerSeparates]

end PercentCoding
