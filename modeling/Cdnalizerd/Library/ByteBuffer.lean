/-
A buffer of fixed size that is written in place, and numbers in it.

A number lies in the buffer with its least significant byte first.
-/

import Mathlib.Algebra.Ring.Nat
import Mathlib.Data.List.Basic

namespace Library.ByteBuffer

/-! ### Writing in place -/

section Overwriting

variable {α : Type}

def overwrite (buffer : List α) (start : Nat) (items : List α) : List α :=
  buffer.take start ++ items ++ buffer.drop (start + items.length)

variable {buffer items : List α} {start : Nat}

theorem length_overwrite (fits : start + items.length ≤ buffer.length) :
    (overwrite buffer start items).length = buffer.length := by
  unfold overwrite
  simp only [List.length_append, List.length_take, List.length_drop]
  omega

theorem take_overwrite (fits : start + items.length ≤ buffer.length) :
    (overwrite buffer start items).take (start + items.length) = buffer.take start ++ items := by
  unfold overwrite
  apply List.take_left'
  rw [List.length_append, List.length_take]
  omega

end Overwriting

/-! ### Little-endian numbers -/

def toBytes : Nat → Nat → List UInt8
  | 0, _number => []
  | width + 1, number => UInt8.ofNat number :: toBytes width (number / 256)

def ofBytes : List UInt8 → Nat
  | [] => 0
  | byte :: rest => byte.toNat + 256 * ofBytes rest

@[simp] theorem length_toBytes (width number : Nat) : (toBytes width number).length = width := by
  induction width generalizing number with
  | zero => rfl
  | succ width ih =>
      unfold toBytes
      rw [List.length_cons, ih]

theorem ofBytes_toBytes (width number : Nat) :
    ofBytes (toBytes width number) = number % 256 ^ width := by
  induction width generalizing number with
  | zero =>
      rw [Nat.pow_zero, Nat.mod_one]
      rfl
  | succ width ih =>
      have low : (UInt8.ofNat number).toNat = number % 256 := UInt8.toNat_ofNat'
      unfold toBytes ofBytes
      rw [ih, low, Nat.pow_succ', Nat.mod_mul]

def word (buffer : List UInt8) (offset : Nat) : UInt32 :=
  UInt32.ofNat (ofBytes ((buffer.drop offset).take 4))

def wordBytes (value : UInt32) : List UInt8 :=
  toBytes 4 value.toNat

@[simp] theorem length_wordBytes (value : UInt32) : (wordBytes value).length = 4 :=
  length_toBytes 4 _

theorem word_congr {left right : List UInt8} {size offset : Nat}
    (same : left.take size = right.take size) (inside : offset + 4 ≤ size) :
    word left offset = word right offset := by
  have narrow (bytes : List UInt8) :
      (bytes.drop offset).take 4 = ((bytes.take size).drop offset).take 4 := by
    rw [List.drop_take, List.take_take, Nat.min_eq_left (by omega)]
  unfold word
  rw [narrow left, narrow right, same]

theorem word_wordBytes_append (value : UInt32) (rest : List UInt8) :
    word (wordBytes value ++ rest) 0 = value := by
  have small : value.toNat % 256 ^ 4 = value.toNat := Nat.mod_eq_of_lt value.toNat_lt
  unfold word
  rw [List.drop_zero, List.take_left' (length_wordBytes value), wordBytes, ofBytes_toBytes, small,
    UInt32.ofNat_toNat]

theorem word_append_of_length {front : List UInt8} {size : Nat} (length : front.length = size)
    (rest : List UInt8) (offset : Nat) :
    word (front ++ rest) (size + offset) = word rest offset := by
  subst length
  unfold word
  rw [← List.drop_drop, List.drop_left]

end Library.ByteBuffer
