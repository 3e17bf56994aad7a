/-
Byte strings and failures shared by every module.

A `std::string` is the list of its bytes.  Comparison of strings is the
lexicographic order of unsigned bytes, as `std::char_traits<char>` has it.
-/

import Mathlib.Data.List.Lex

namespace Cdnalizerd

abbrev Bytes := List UInt8

/-- The bytes of an ASCII literal. -/
def text (literal : String) : Bytes :=
  literal.toList.map Char.toUInt8

def slash : UInt8 := 47

def question : UInt8 := 63

def tilde : UInt8 := 126

instance instLinearOrderUInt8 : LinearOrder UInt8 where
  le_refl := UInt8.le_refl
  le_trans _ _ _ := UInt8.le_trans
  lt_iff_le_not_ge left right := by
    simp only [UInt8.lt_iff_toNat_lt, UInt8.le_iff_toNat_le]
    omega
  le_antisymm _ _ := UInt8.le_antisymm
  le_total := UInt8.le_total
  toDecidableLE := inferInstance
  toDecidableLT := inferInstance
  toDecidableEq := inferInstance

/-- Everything that can leave a function other than by its return. -/
inductive Failure where
  /-- `std::out_of_range` from a map's `at`. -/
  | outOfRange
  | logicError (what : String)
  | runtimeError (what : String)
  /-- A `system_error` of the standard library, of Boost or of its file system. -/
  | systemError (code : Nat)
  /-- The exception of `URL::parse`, with the text and the position it carries. -/
  | parseError (raw : Bytes) (position : Nat)
  /-- A broken precondition of the standard library, after which nothing is promised. -/
  | undefinedBehaviour
deriving DecidableEq

end Cdnalizerd
