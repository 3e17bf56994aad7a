/-
Percent coding of byte strings.

An encoder is determined by the bytes it leaves literal.  Every such encoder
that does not leave the percent sign literal is undone by one decoder, and the
decoder distributes over any byte that cannot belong to a triple.
-/

import Mathlib.Data.List.Basic

namespace PercentCoding

def percent : UInt8 := 37

def hexDigit (value : UInt8) : UInt8 :=
  if value ≤ 9 then 48 + value else 65 + value - 10

def hexValue (digit : UInt8) : Option UInt8 :=
  if 48 ≤ digit ∧ digit ≤ 57 then some (digit - 48)
  else if 65 ≤ digit ∧ digit ≤ 70 then some (digit - 55)
  else if 97 ≤ digit ∧ digit ≤ 102 then some (digit - 87)
  else none

/-- Each triple of a percent sign and two hexadecimal digits becomes one byte;
every other byte stands for itself. -/
def decode : List UInt8 → List UInt8
  | [] => []
  | [byte] => [byte]
  | [first, second] => [first, second]
  | byte :: high :: low :: rest =>
      if byte = percent then
        match hexValue high, hexValue low with
        | some left, some right => (left * 16 + right) :: decode rest
        | _, _ => byte :: decode (high :: low :: rest)
      else byte :: decode (high :: low :: rest)

def encodeByte (literal : UInt8 → Bool) (byte : UInt8) : List UInt8 :=
  if literal byte then [byte]
  else [percent, hexDigit (byte >>> 4), hexDigit (byte &&& 15)]

def encode (literal : UInt8 → Bool) (bytes : List UInt8) : List UInt8 :=
  bytes.flatMap (encodeByte literal)

def Separator (byte : UInt8) : Prop :=
  byte ≠ percent ∧ hexValue byte = none

instance (byte : UInt8) : Decidable (Separator byte) :=
  inferInstanceAs (Decidable (_ ∧ _))

/-! ### The decoder, one step at a time -/

theorem decode_cons_of_ne_percent {byte : UInt8} (different : byte ≠ percent)
    (rest : List UInt8) : decode (byte :: rest) = byte :: decode rest := by
  match rest with
  | [] => rfl
  | [_] => rfl
  | _ :: _ :: _ => rw [decode, if_neg different]

theorem decode_triple {high low left right : UInt8}
    (atHigh : hexValue high = some left) (atLow : hexValue low = some right)
    (rest : List UInt8) :
    decode (percent :: high :: low :: rest) =
      (left * 16 + right) :: decode rest := by
  rw [decode, if_pos rfl, atHigh, atLow]

theorem decode_percent_of_no_triple {high low : UInt8}
    (missing : hexValue high = none ∨ hexValue low = none)
    (rest : List UInt8) :
    decode (percent :: high :: low :: rest) =
      percent :: decode (high :: low :: rest) := by
  rw [decode, if_pos rfl]
  rcases missing with atHigh | atLow
  · rw [atHigh]
  · rw [atLow]
    cases hexValue high <;> rfl

/-- Every nonempty input either opens a triple or begins with a literal
byte. -/
theorem decode_cases (byte : UInt8) (rest : List UInt8) :
    (∃ high low left right tail, byte = percent ∧ rest = high :: low :: tail ∧
        hexValue high = some left ∧ hexValue low = some right ∧
        decode (byte :: rest) = (left * 16 + right) :: decode tail) ∨
      decode (byte :: rest) = byte :: decode rest := by
  by_cases opens : byte = percent
  · subst opens
    match rest with
    | [] => exact Or.inr rfl
    | [_] => exact Or.inr rfl
    | high :: low :: tail =>
        cases atHigh : hexValue high with
        | none => exact Or.inr (decode_percent_of_no_triple (Or.inl atHigh) tail)
        | some left =>
            cases atLow : hexValue low with
            | none =>
                exact Or.inr (decode_percent_of_no_triple (Or.inr atLow) tail)
            | some right =>
                exact Or.inl ⟨high, low, left, right, tail, rfl, rfl, atHigh, atLow,
                  decode_triple atHigh atLow tail⟩
  · exact Or.inr (decode_cons_of_ne_percent opens rest)

theorem decode_append_separator {separator : UInt8}
    (separates : Separator separator) (before after : List UInt8) :
    decode (before ++ separator :: after) =
      decode before ++ separator :: decode after := by
  induction before using decode.induct with
  | case1 => exact decode_cons_of_ne_percent separates.1 after
  | case2 byte =>
      by_cases opens : byte = percent
      · subst opens
        cases after with
        | nil => rfl
        | cons next tail =>
            change decode (percent :: separator :: next :: tail) = _
            rw [decode_percent_of_no_triple (Or.inl separates.2),
              decode_cons_of_ne_percent separates.1]
            rfl
      · change decode (byte :: separator :: after) = _
        rw [decode_cons_of_ne_percent opens, decode_cons_of_ne_percent separates.1]
        rfl
  | case3 first second =>
      have tail : decode (second :: separator :: after) =
          second :: separator :: decode after := by
        by_cases opens : second = percent
        · subst opens
          cases after with
          | nil => rfl
          | cons next tail =>
              rw [decode_percent_of_no_triple (Or.inl separates.2),
                decode_cons_of_ne_percent separates.1]
        · rw [decode_cons_of_ne_percent opens, decode_cons_of_ne_percent separates.1]
      change decode (first :: second :: separator :: after) =
        first :: second :: separator :: decode after
      by_cases opens : first = percent
      · subst opens
        rw [decode_percent_of_no_triple (Or.inr separates.2), tail]
      · rw [decode_cons_of_ne_percent opens, tail]
  | case4 high low rest right left atLow atHigh ih =>
      change decode (percent :: high :: low :: (rest ++ separator :: after)) =
        decode (percent :: high :: low :: rest) ++ _
      rw [decode_triple atHigh atLow, decode_triple atHigh atLow, ih]
      rfl
  | case5 high low rest missing ih =>
      have absent : hexValue high = none ∨ hexValue low = none := by
        cases atHigh : hexValue high with
        | none => exact Or.inl rfl
        | some left =>
            cases atLow : hexValue low with
            | none => exact Or.inr rfl
            | some right => exact (missing left right atHigh atLow).elim
      change decode (percent :: high :: low :: (rest ++ separator :: after)) =
        decode (percent :: high :: low :: rest) ++ _
      rw [decode_percent_of_no_triple absent, decode_percent_of_no_triple absent]
      exact congrArg (percent :: ·) ih
  | case6 byte high low rest different ih =>
      change decode (byte :: high :: low :: (rest ++ separator :: after)) =
        decode (byte :: high :: low :: rest) ++ _
      rw [decode_cons_of_ne_percent different, decode_cons_of_ne_percent different]
      exact congrArg (byte :: ·) ih

/-! ### Decoding undoes encoding -/

private theorem hexValue_hexDigit_table :
    ∀ value : Fin 16, hexValue (hexDigit (UInt8.ofNat value.val)) =
      some (UInt8.ofNat value.val) := by
  decide

private theorem nibbles_table :
    ∀ byte : Fin 256,
      (UInt8.ofNat byte.val) >>> 4 = UInt8.ofNat (byte.val / 16) ∧
        (UInt8.ofNat byte.val) &&& 15 = UInt8.ofNat (byte.val % 16) ∧
        UInt8.ofNat (byte.val / 16) * 16 + UInt8.ofNat (byte.val % 16) =
          UInt8.ofNat byte.val := by
  decide +kernel

theorem exists_byte_index (byte : UInt8) :
    ∃ index : Fin 256, byte = UInt8.ofNat index.val :=
  ⟨⟨byte.toNat, byte.toNat_lt⟩, (UInt8.ofNat_toNat).symm⟩

theorem hexValue_nibbles (byte : UInt8) :
    ∃ left right, hexValue (hexDigit (byte >>> 4)) = some left ∧
      hexValue (hexDigit (byte &&& 15)) = some right ∧
      left * 16 + right = byte := by
  obtain ⟨index, rfl⟩ := exists_byte_index byte
  obtain ⟨high, low, total⟩ := nibbles_table index
  have bound : index.val / 16 < 16 := by omega
  refine ⟨_, _, ?_, ?_, total⟩
  · rw [high]
    exact hexValue_hexDigit_table ⟨index.val / 16, bound⟩
  · rw [low]
    exact hexValue_hexDigit_table ⟨index.val % 16, Nat.mod_lt _ (by decide)⟩

theorem decode_encodeByte_append {literal : UInt8 → Bool}
    (escapes : literal percent = false) (byte : UInt8) (after : List UInt8) :
    decode (encodeByte literal byte ++ after) = byte :: decode after := by
  cases kept : literal byte with
  | true =>
      have different : byte ≠ percent := by
        intro same
        rw [same, escapes] at kept
        cases kept
      have shape : encodeByte literal byte ++ after = byte :: after := by
        simp [encodeByte, kept]
      rw [shape, decode_cons_of_ne_percent different]
  | false =>
      obtain ⟨left, right, atHigh, atLow, total⟩ := hexValue_nibbles byte
      have shape : encodeByte literal byte ++ after =
          percent :: hexDigit (byte >>> 4) :: hexDigit (byte &&& 15) :: after := by
        simp [encodeByte, kept]
      rw [shape, decode_triple atHigh atLow, total]

theorem decode_encode_append {literal : UInt8 → Bool}
    (escapes : literal percent = false) (bytes after : List UInt8) :
    decode (encode literal bytes ++ after) = bytes ++ decode after := by
  induction bytes with
  | nil => rfl
  | cons byte rest ih =>
      change decode ((encodeByte literal byte ++ encode literal rest) ++ after) = _
      rw [List.append_assoc, decode_encodeByte_append escapes, ih]
      rfl

theorem decode_encode {literal : UInt8 → Bool}
    (escapes : literal percent = false) (bytes : List UInt8) :
    decode (encode literal bytes) = bytes := by
  have roundTrip := decode_encode_append escapes bytes []
  rw [List.append_nil] at roundTrip
  rw [roundTrip]
  exact List.append_nil bytes

theorem encode_injective {literal : UInt8 → Bool}
    (escapes : literal percent = false) : Function.Injective (encode literal) := by
  intro left right same
  have decoded := congrArg decode same
  rwa [decode_encode escapes, decode_encode escapes] at decoded

theorem encode_append (literal : UInt8 → Bool) (left right : List UInt8) :
    encode literal (left ++ right) = encode literal left ++ encode literal right :=
  List.flatMap_append

theorem encode_eq_nil_iff (literal : UInt8 → Bool) (bytes : List UInt8) :
    encode literal bytes = [] ↔ bytes = [] := by
  cases bytes with
  | nil => simp [encode]
  | cons byte rest =>
      simp only [encode, List.flatMap_cons, List.append_eq_nil_iff, reduceCtorEq,
        iff_false, not_and]
      intro empty
      unfold encodeByte at empty
      split at empty <;> cases empty

/-! ### What an encoder writes -/

def isUpperDigit (digit : UInt8) : Bool :=
  (48 ≤ digit && digit ≤ 57) || (65 ≤ digit && digit ≤ 70)

/-- Literal bytes and triples with upper-case digits, one after the other. -/
inductive Encoded (literal : UInt8 → Bool) : List UInt8 → Prop
  | nil : Encoded literal []
  | literal {byte : UInt8} {rest : List UInt8} (kept : literal byte = true)
      (others : Encoded literal rest) : Encoded literal (byte :: rest)
  | triple {high low : UInt8} {rest : List UInt8} (left : isUpperDigit high = true)
      (right : isUpperDigit low = true) (others : Encoded literal rest) :
      Encoded literal (percent :: high :: low :: rest)

private theorem hexDigit_upper_table :
    ∀ value : Fin 16, isUpperDigit (hexDigit (UInt8.ofNat value.val)) = true := by
  decide

theorem isUpperDigit_nibbles (byte : UInt8) :
    isUpperDigit (hexDigit (byte >>> 4)) = true ∧
      isUpperDigit (hexDigit (byte &&& 15)) = true := by
  obtain ⟨index, rfl⟩ := exists_byte_index byte
  obtain ⟨high, low, _total⟩ := nibbles_table index
  have bound : index.val / 16 < 16 := by omega
  rw [high, low]
  exact ⟨hexDigit_upper_table ⟨index.val / 16, bound⟩,
    hexDigit_upper_table ⟨index.val % 16, Nat.mod_lt _ (by decide)⟩⟩

theorem encoded_encode (literal : UInt8 → Bool) (bytes : List UInt8) :
    Encoded literal (encode literal bytes) := by
  induction bytes with
  | nil => exact Encoded.nil
  | cons byte rest ih =>
      change Encoded literal (encodeByte literal byte ++ encode literal rest)
      unfold encodeByte
      split
      · rename_i kept
        exact Encoded.literal kept ih
      · exact Encoded.triple (isUpperDigit_nibbles byte).1 (isUpperDigit_nibbles byte).2 ih

/-- What holds of the literal bytes, of the percent sign and of the digits holds
of every byte. -/
theorem Encoded.forall_mem {literal holds : UInt8 → Bool} {bytes : List UInt8}
    (encoded : Encoded literal bytes) (ofLiteral : ∀ byte, literal byte = true → holds byte = true)
    (ofPercent : holds percent = true)
    (ofDigit : ∀ digit, isUpperDigit digit = true → holds digit = true) :
    ∀ byte ∈ bytes, holds byte = true := by
  induction encoded with
  | nil =>
      intro byte member
      cases member
  | literal kept _others ih =>
      intro byte member
      rcases List.mem_cons.mp member with rfl | later
      · exact ofLiteral byte kept
      · exact ih byte later
  | triple left right _others ih =>
      intro byte member
      simp only [List.mem_cons] at member
      rcases member with rfl | rfl | rfl | later
      · exact ofPercent
      · exact ofDigit byte left
      · exact ofDigit byte right
      · exact ih byte later

/-! ### When decoding changes nothing -/

/-- Decoding shortens a string, so it cannot reproduce the string shifted to
the right until a separator it keeps. -/
theorem decode_append_ne_shifted {separator : UInt8}
    (separates : Separator separator) (bytes shift left right : List UInt8)
    (shifted : shift ≠ []) (clean : separator ∉ shift) :
    decode bytes ++ separator :: left ≠ shift ++ (bytes ++ right) := by
  induction hLength : bytes.length using Nat.strongRecOn
    generalizing bytes shift with
  | _ length ih =>
    obtain ⟨first, others, rfl⟩ := List.exists_cons_of_ne_nil shifted
    have firstClean : separator ≠ first := fun same => clean (same ▸ List.mem_cons_self)
    have othersClean : separator ∉ others :=
      fun member => clean (List.mem_cons_of_mem first member)
    intro same
    cases bytes with
    | nil => exact firstClean (List.cons.inj same).1
    | cons byte rest =>
        rcases decode_cases byte rest with
          ⟨high, low, leftDigit, rightDigit, tail, rfl, rfl, atHigh, atLow, decoded⟩ |
          decoded
        · rw [decoded] at same
          have tailSame := (List.cons.inj same).2
          refine ih tail.length (by simp only [List.length_cons] at hLength; omega) tail
            (others ++ [percent, high, low]) (by simp) ?_ rfl ?_
          · simp only [List.mem_append, List.mem_cons, List.not_mem_nil, or_false, not_or]
            refine ⟨othersClean, separates.1, ?_, ?_⟩
            · rintro rfl
              rw [separates.2] at atHigh
              cases atHigh
            · rintro rfl
              rw [separates.2] at atLow
              cases atLow
          · simpa using tailSame
        · rw [decoded] at same
          obtain ⟨headSame, tailSame⟩ := List.cons.inj same
          refine ih rest.length (by simp only [List.length_cons] at hLength; omega) rest
            (others ++ [byte]) (by simp) ?_ rfl ?_
          · simp only [List.mem_append, List.mem_singleton, not_or]
            exact ⟨othersClean, fun equal => firstClean (equal.trans headSame)⟩
          · simpa using tailSame

/-- A string that decodes to itself up to its first separator holds no
triple. -/
theorem decode_eq_self_of_append_eq {separator : UInt8}
    (separates : Separator separator) (bytes left right : List UInt8)
    (same : decode bytes ++ separator :: left = bytes ++ right) :
    decode bytes = bytes := by
  induction bytes with
  | nil => rfl
  | cons byte rest ih =>
      rcases decode_cases byte rest with
        ⟨high, low, leftDigit, rightDigit, tail, rfl, rfl, atHigh, atLow, decoded⟩ |
        decoded
      · rw [decoded] at same
        have tailSame := (List.cons.inj same).2
        refine absurd tailSame ?_
        refine decode_append_ne_shifted separates tail [high, low] left right (by simp) ?_
        simp only [List.mem_cons, List.not_mem_nil, or_false, not_or]
        constructor
        · rintro rfl
          rw [separates.2] at atHigh
          cases atHigh
        · rintro rfl
          rw [separates.2] at atLow
          cases atLow
      · rw [decoded] at same ⊢
        rw [ih (List.cons.inj same).2]

end PercentCoding
