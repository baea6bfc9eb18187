import FacetOS.Core.Memory
import FacetOS.Rpc.TypeMeta

/-!
# Values of interface types

What a C object of an IDL type means, independently of where it lies, and the
canonical payload bytes of such a value.  The codec does not read every object as C
does: a `bool` is read through an `int`, and an enum in the width of its underlying
type.
-/

namespace FacetOS.Rpc

open LittleEndian ByteMemory

/-- A value without addresses.  Numbers, enums and identifiers are their bytes. -/
inductive Value
  | raw (bytes : List UInt8)
  | bool (value : Bool)
  | string (bytes : List UInt8)
  | array (elements : List Value)
  | struct (fields : List Value)

mutual

/-- The payload bytes of a value. -/
def Value.wire : Value → List UInt8
  | .raw bytes => bytes
  | .bool value => [if value then 1 else 0]
  | .string bytes => leBytes 4 bytes.length ++ bytes
  | .array elements => leBytes 4 elements.length ++ wireAll elements
  | .struct fields => wireAll fields

def wireAll : List Value → List UInt8
  | [] => []
  | value :: values => value.wire ++ wireAll values

end

/-- A `bool` object, read as C reads it. -/
def cBool (memory : Memory) (address : ℕ) : Bool :=
  loadNat memory address 1 ≠ 0

/-- A `bool` object, read through a pointer to `int`. -/
def intBool (memory : Memory) (address : ℕ) : Bool :=
  loadNat memory address 4 ≠ 0

mutual

/-- The value of the object of a type at an address, as C reads it. -/
def IdlType.load (memory : Memory) : IdlType → ℕ → Value
  | .int kind, address => .raw (ByteMemory.load memory address kind.width)
  | .bool, address => .bool (cBool memory address)
  | .uuid, address => .raw (ByteMemory.load memory address 16)
  | .handle, address => .raw (ByteMemory.load memory address 8)
  | .localPtr, address => .raw (ByteMemory.load memory address 8)
  | .enum _ _, address => .raw (ByteMemory.load memory address 4)
  | .string, address =>
    .string (ByteMemory.load memory (loadNat memory address 8)
      (loadNat memory (address + 8) 8))
  | .array element, address =>
    .array ((List.range (loadNat memory (address + 8) 8)).map fun index =>
      element.load memory (loadNat memory address 8 + index * element.cSize))
  | .struct _ fields, address => .struct (fields.load memory address)

def IdlFields.load (memory : Memory) : IdlFields → ℕ → List Value
  | .nil, _ => []
  | .cons offset type rest, address =>
    type.load memory (address + offset) :: rest.load memory address

end

mutual

/-- Every `bool` inside the object that C reads as false is followed by three zero
bytes. -/
def IdlType.FalseBoolsPadded (memory : Memory) : IdlType → ℕ → Prop
  | .bool, address => cBool memory address = false →
      ∀ index < 3, memory (address + 1 + index) = 0
  | .array element, address =>
    ∀ index < loadNat memory (address + 8) 8,
      element.FalseBoolsPadded memory
        (loadNat memory address 8 + index * element.cSize)
  | .struct _ fields, address => fields.FalseBoolsPadded memory address
  | .int _, _ | .uuid, _ | .handle, _ | .string, _ | .localPtr, _ | .enum _ _, _ => True

def IdlFields.FalseBoolsPadded (memory : Memory) : IdlFields → ℕ → Prop
  | .nil, _ => True
  | .cons offset type rest, address =>
    type.FalseBoolsPadded memory (address + offset) ∧
      rest.FalseBoolsPadded memory address

end

/-- A `bool` reads the same in both ways unless it is false and not padded. -/
theorem intBool_eq_cBool_iff (memory : Memory) (address : ℕ) :
    intBool memory address = cBool memory address ↔
      (cBool memory address = false →
        ∀ index < 3, memory (address + 1 + index) = 0) := by
  have hint : loadNat memory address 4 = (memory address).toNat +
      256 * ((memory (address + 1)).toNat + 256 * ((memory (address + 2)).toNat +
        256 * (memory (address + 3)).toNat)) := by
    simp [loadNat, ByteMemory.load, List.range_succ]
  have hbyte : loadNat memory address 1 = (memory address).toNat := by
    simp [loadNat, ByteMemory.load, List.range_succ]
  have hzero (byte : UInt8) : byte = 0 ↔ byte.toNat = 0 := by
    rw [← UInt8.toNat_inj]
    rfl
  have hthree : (∀ index < 3, memory (address + 1 + index) = 0) ↔
      (memory (address + 1)).toNat = 0 ∧ (memory (address + 2)).toNat = 0 ∧
        (memory (address + 3)).toNat = 0 := by
    simp only [hzero]
    constructor
    · intro hall
      exact ⟨hall 0 (by decide), hall 1 (by decide), hall 2 (by decide)⟩
    · rintro ⟨hfirst, hsecond, hthird⟩ index hindex
      interval_cases index
      · exact hfirst
      · exact hsecond
      · exact hthird
  rw [hthree]
  simp only [intBool, cBool, hint, hbyte, decide_eq_decide, decide_eq_false_iff_not,
    not_not]
  omega

/-- The width that the codec gives to the elements of an array of enums. -/
def IdlType.enumWidth : IdlType → Option ℕ
  | .enum underlying _ => some underlying.width
  | _ => none

mutual

/-- The bytes of enums that the codec does not carry are the same in both objects: those
behind the width of the underlying type, all bytes of an enum from another interface
file, and what is left of an array of enums behind the elements as the codec measures
them. -/
def IdlType.EnumsKept (source target : Memory) : IdlType → ℕ → ℕ → Prop
  | .enum underlying imported, input, output =>
    ∀ index < 4, (imported = false → underlying.width ≤ index) →
      target (output + index) = source (input + index)
  | .array element, input, output =>
    match element.enumWidth with
    | some width => ∀ index < loadNat source (input + 8) 8 * 4,
        loadNat source (input + 8) 8 * width ≤ index →
        target (loadNat target output 8 + index) = source (loadNat source input 8 + index)
    | none => ∀ index < loadNat source (input + 8) 8,
        element.EnumsKept source target (loadNat source input 8 + index * element.cSize)
          (loadNat target output 8 + index * element.cSize)
  | .struct _ fields, input, output => fields.EnumsKept source target input output
  | .int _, _, _ | .bool, _, _ | .uuid, _, _ | .handle, _, _ | .string, _, _
  | .localPtr, _, _ => True

def IdlFields.EnumsKept (source target : Memory) : IdlFields → ℕ → ℕ → Prop
  | .nil, _, _ => True
  | .cons offset type rest, input, output =>
    type.EnumsKept source target (input + offset) (output + offset) ∧
      rest.EnumsKept source target input output

end

end FacetOS.Rpc
