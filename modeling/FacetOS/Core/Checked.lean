import Mathlib

/-!
# Checked machine computations

Code that indexes a buffer with machine integers can go wrong in three ways: it
can load outside the buffer, an addition can wrap, and a loop can fail to end.
Here each of these is a fault, so that a computation which returns a value has
done none of them.  The buffer is a list and its loads are positions in it.
-/

namespace FacetOS.Checked

/-- What stops a checked computation. -/
inductive Fault
  | outOfBounds (position : ℕ)
  | wrapped
  | exhausted
  deriving DecidableEq, Repr

@[simp]
theorem ok_bind {α β : Type} (value : α) (next : α → Except Fault β) :
    ((Except.ok value : Except Fault α) >>= next) = next value := rfl

/-- Two conditionals that branch alike are related as their branches are. -/
theorem ite_related {α β : Type*} {relation : α → β → Prop} {p q : Prop} [Decidable p]
    [Decidable q] {first second : α} {third fourth : β} (hiff : p ↔ q)
    (hthen : q → relation first third) (helse : ¬q → relation second fourth) :
    relation (if p then first else second) (if q then third else fourth) := by
  by_cases hq : q
  · rw [if_pos hq, if_pos (hiff.mpr hq)]
    exact hthen hq
  · rw [if_neg hq, if_neg (mt hiff.mp hq)]
    exact helse hq

section Loads

variable {α : Type*}

/-- Load one element of a buffer. -/
def load (buffer : List α) (position : ℕ) : Except Fault α :=
  match buffer[position]? with
  | some value => .ok value
  | none => .error (.outOfBounds position)

theorem load_eq_ok {buffer : List α} {position : ℕ} {value : α}
    (hvalue : buffer[position]? = some value) : load buffer position = .ok value := by
  rw [load, hvalue]

/-- Load consecutive elements, as a block copy or comparison does. -/
def loadBlock (buffer : List α) (position : ℕ) : ℕ → Except Fault (List α)
  | 0 => .ok []
  | count + 1 =>
    match load buffer position with
    | .error fault => .error fault
    | .ok value => (loadBlock buffer (position + 1) count).map (value :: ·)

/-- A block inside the buffer is loaded without a fault. -/
theorem loadBlock_eq_ok {buffer : List α} {position count : ℕ}
    (hbounds : position + count ≤ buffer.length) :
    loadBlock buffer position count = .ok ((buffer.drop position).take count) := by
  induction count generalizing position with
  | zero => simp [loadBlock]
  | succ count ih =>
    have hlt : position < buffer.length := by omega
    have hload := load_eq_ok (List.getElem?_eq_getElem hlt)
    rw [loadBlock, hload, List.drop_eq_getElem_cons hlt, List.take_succ_cons]
    rw [ih (by omega)]
    rfl

end Loads

section Stores

variable {α : Type*}

/-- Store one element into a buffer. -/
def store (buffer : List α) (position : ℕ) (value : α) : Except Fault (List α) :=
  if position < buffer.length then .ok (buffer.set position value)
  else .error (.outOfBounds position)

theorem store_eq_ok {buffer : List α} {position : ℕ} (hbounds : position < buffer.length)
    (value : α) : store buffer position value = .ok (buffer.set position value) :=
  if_pos hbounds

theorem take_set_self {buffer : List α} {position : ℕ} (hbounds : position < buffer.length)
    (value : α) : (buffer.set position value).take (position + 1) =
      buffer.take position ++ [value] := by
  rw [List.take_succ_eq_append_getElem (by simpa using hbounds), List.take_set_of_le le_rfl,
    List.getElem_set_self]

/-- A buffer that begins with some elements begins with every prefix of them. -/
theorem take_length_of_prefix {buffer values kept : List α} {count : ℕ}
    (hvalues : buffer.take count = values) (hkept : kept <+: values) :
    buffer.take kept.length = kept :=
  (List.prefix_iff_eq_take.mp (hkept.trans (hvalues ▸ List.take_prefix _ _))).symm

/-- Store consecutive elements, as a block copy does. -/
def storeBlock (buffer : List α) (position : ℕ) : List α → Except Fault (List α)
  | [] => .ok buffer
  | value :: values =>
    match store buffer position value with
    | .error fault => .error fault
    | .ok buffer => storeBlock buffer (position + 1) values

/-- A block inside the buffer is stored without a fault, behind what was there. -/
theorem storeBlock_eq_ok {buffer values : List α} {position : ℕ}
    (hbounds : position + values.length ≤ buffer.length) :
    ∃ result, storeBlock buffer position values = .ok result ∧
      result.length = buffer.length ∧
      result.take (position + values.length) = buffer.take position ++ values := by
  induction values generalizing buffer position with
  | nil => exact ⟨buffer, rfl, rfl, by simp⟩
  | cons value values ih =>
    rw [List.length_cons] at hbounds
    have hlt : position < buffer.length := by omega
    obtain ⟨result, hstore, hlength, htake⟩ :=
      @ih (buffer.set position value) (position + 1) (by rw [List.length_set]; omega)
    refine ⟨result, ?_, hlength.trans (List.length_set ..), ?_⟩
    · rw [storeBlock, store_eq_ok hlt]
      exact hstore
    · rw [take_set_self hlt] at htake
      rw [List.length_cons, show position + (values.length + 1) = position + 1 + values.length by
        omega, htake, List.append_assoc, List.singleton_append]

end Stores

/-- Addition that must stay below a bound. -/
def add (bound left right : ℕ) : Except Fault ℕ :=
  if left + right < bound then .ok (left + right) else .error .wrapped

theorem add_eq_ok {bound left right : ℕ} (hbound : left + right < bound) :
    add bound left right = .ok (left + right) :=
  if_pos hbound

/-- Multiplication that must stay below a bound. -/
def mul (bound left right : ℕ) : Except Fault ℕ :=
  if left * right < bound then .ok (left * right) else .error .wrapped

theorem mul_eq_ok {bound left right : ℕ} (hbound : left * right < bound) :
    mul bound left right = .ok (left * right) :=
  if_pos hbound

/-! ## Signed words -/

/-- The result of a signed operation on 64 bits, which must not overflow. -/
def signed64 (value : ℤ) : Except Fault ℤ :=
  if -2 ^ 63 ≤ value ∧ value < 2 ^ 63 then .ok value else .error .wrapped

theorem signed64_eq_ok {value : ℤ} (hleast : -2 ^ 63 ≤ value) (hgreatest : value < 2 ^ 63) :
    signed64 value = .ok value :=
  if_pos ⟨hleast, hgreatest⟩

theorem signed64_eq_error {value : ℤ} (hrange : value < -2 ^ 63 ∨ 2 ^ 63 ≤ value) :
    signed64 value = .error .wrapped :=
  if_neg (by omega)

/-- An unsigned word read as a signed one. -/
theorem toInt_toInt64 (word : UInt64) :
    word.toInt64.toInt = if word.toNat < 2 ^ 63 then (word.toNat : ℤ) else word.toNat - 2 ^ 64 := by
  change word.toBitVec.toInt = _
  rw [BitVec.toInt_eq_toNat_cond, UInt64.toNat_toBitVec]
  split_ifs <;> omega

theorem toInt_neg_cond (word : Int64) :
    (-word).toInt = if word.toInt = -2 ^ 63 then -2 ^ 63 else -word.toInt := by
  have hleast := word.le_toInt
  have hgreatest := word.toInt_lt
  rw [Int64.toInt_neg, Int.bmod_def]
  split_ifs <;> omega

/-- A sum wraps at most once. -/
theorem toInt_add_cond (left right : Int64) :
    (left + right).toInt
      = if left.toInt + right.toInt < -2 ^ 63 then left.toInt + right.toInt + 2 ^ 64
        else if left.toInt + right.toInt < 2 ^ 63 then left.toInt + right.toInt
        else left.toInt + right.toInt - 2 ^ 64 := by
  have hleft := left.le_toInt
  have hleft' := left.toInt_lt
  have hright := right.le_toInt
  have hright' := right.toInt_lt
  rw [Int64.toInt_add, Int.bmod_def]
  split_ifs <;> omega

theorem toInt_maxValue_sub {word : Int64} (hword : 0 < word.toInt) :
    (Int64.maxValue - word).toInt = 2 ^ 63 - 1 - word.toInt := by
  have hgreatest := word.toInt_lt
  rw [Int64.toInt_sub, Int64.toInt_maxValue, Int.bmod_def]
  split_ifs <;> omega

/-- A signed sum, stored in an unsigned word. -/
theorem toNat_add_toUInt64 (base : UInt64) (offset : Int64) :
    ((base.toInt64 + offset).toUInt64.toNat : ℤ) = (base.toNat + offset.toInt) % 2 ^ 64 := by
  have hword : offset.toInt = if offset.toUInt64.toNat < 2 ^ 63 then (offset.toUInt64.toNat : ℤ)
      else offset.toUInt64.toNat - 2 ^ 64 := by
    rw [← toInt_toInt64, Int64.toInt64_toUInt64]
  rw [Int64.toUInt64_add, UInt64.toUInt64_toInt64, UInt64.toNat_add, hword]
  split_ifs <;> omega

end FacetOS.Checked
