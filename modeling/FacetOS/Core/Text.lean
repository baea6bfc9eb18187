import Mathlib

/-!
# Byte strings

Program text is handled as lists of bytes.  A counted string may hold any byte;
a C string ends at its first zero byte, so every routine that takes one sees
only the bytes before it.
-/

namespace FacetOS

/-- The bytes of an ASCII literal. -/
def ascii (text : String) : List UInt8 :=
  text.toList.map (fun c => c.toNat.toUInt8)

instance lawfulBEqBytes : LawfulBEq (List UInt8) := inferInstance

/-- What a C string routine reads of a buffer. -/
def cString (bytes : List UInt8) : List UInt8 :=
  bytes.takeWhile (fun byte => byte ≠ 0)

/-- The digits that `%u` prints. -/
def decimal (value : ℕ) : List UInt8 :=
  ascii (toString value)

theorem decimal_eq (value : ℕ) :
    decimal value = (Nat.toDigits 10 value).map (fun c => c.toNat.toUInt8) := by
  rw [decimal, ascii]
  exact congrArg (List.map _) Nat.toList_repr

/-! ## The UTF-8 check -/

/-- How many continuation bytes follow a lead byte, and the bits it contributes. -/
def utf8Lead (first : ℕ) : Option (ℕ × ℕ) :=
  if 0xc2 ≤ first ∧ first ≤ 0xdf then some (1, first % 32)
  else if 0xe0 ≤ first ∧ first ≤ 0xef then some (2, first % 16)
  else if 0xf0 ≤ first ∧ first ≤ 0xf4 then some (3, first % 8)
  else none

/-- The value that the continuation bytes complete, and the bytes behind them. -/
def utf8Continue : ℕ → ℕ → List UInt8 → Option (ℕ × List UInt8)
  | 0, value, rest => some (value, rest)
  | _ + 1, _, [] => none
  | needed + 1, value, next :: rest =>
    if next.toNat / 64 = 2 then utf8Continue needed (value * 64 + next.toNat % 64) rest
    else none

/-- Values that have a shorter encoding, are surrogates or exceed the range. -/
def utf8Excluded (needed value : ℕ) : Bool :=
  (needed = 2 ∧ value < 0x800) ∨ (needed = 3 ∧ value < 0x10000) ∨ value > 0x10ffff
    ∨ (0xd800 ≤ value ∧ value ≤ 0xdfff)

/-- The loop over the sequences of a text; `fuel` bounds their number. -/
def utf8Loop : ℕ → List UInt8 → Bool
  | _, [] => true
  | 0, _ :: _ => false
  | fuel + 1, first :: rest =>
    if first.toNat < 0x80 then utf8Loop fuel rest
    else
      match utf8Lead first.toNat with
      | none => false
      | some (needed, value) =>
        match utf8Continue needed value rest with
        | none => false
        | some (value, rest) =>
          if utf8Excluded needed value then false else utf8Loop fuel rest

/-- Every sequence takes at least one byte, so the length bounds their number. -/
def facetUtf8IsValid (bytes : List UInt8) : Bool :=
  utf8Loop bytes.length bytes

theorem zero_not_mem_cString (bytes : List UInt8) : 0 ∉ cString bytes := by
  intro hmem
  simpa using List.mem_takeWhile_imp hmem

theorem cString_append {left : List UInt8} (hleft : 0 ∉ left) (right : List UInt8) :
    cString (left ++ right) = left ++ cString right := by
  rw [cString, List.takeWhile_append_of_pos]
  · rfl
  · intro byte hbyte
    have hne : byte ≠ 0 := fun heq => hleft (heq ▸ hbyte)
    simpa using hne

theorem cString_eq_self {bytes : List UInt8} (hbytes : 0 ∉ bytes) : cString bytes = bytes := by
  rw [← List.append_nil bytes, cString_append hbytes]
  rfl

/-- Bytes after the terminator are not seen. -/
theorem cString_append_zero {bytes : List UInt8} (hbytes : 0 ∉ bytes) (rest : List UInt8) :
    cString (bytes ++ 0 :: rest) = bytes := by
  rw [cString_append hbytes, cString, List.takeWhile_cons_of_neg (by simp), List.append_nil]

/-- A terminator behind the bytes changes nothing. -/
theorem cString_append_terminator (bytes : List UInt8) :
    cString (bytes ++ [0]) = cString bytes := by
  by_cases hzero : 0 ∈ bytes
  · rw [cString, cString, List.takeWhile_append, if_neg]
    intro hlength
    have hall := List.takeWhile_eq_self_iff.mp
      ((List.takeWhile_prefix _).eq_of_length hlength) 0 hzero
    simp at hall
  · rw [cString_append_zero hzero, cString_eq_self hzero]

end FacetOS
