import FacetOS.Rpc.Decoding

/-!
# Objects of a type description

The codec is driven by a description, a kind with metadata, and not by an IDL type.
What an object means is therefore stated for descriptions here: its value, the value
of a word of the grammar, and where in the object something holds of every part.
-/

namespace FacetOS.Rpc

open LittleEndian ByteMemory

/-! ## Values and words -/

mutual

/-- The value that a word spells.  Every nonzero byte spells true. -/
def Word.value : Word → Value
  | .scalar bytes => .raw bytes
  | .bool byte => .bool (byte ≠ 0)
  | .string bytes => .string bytes
  | .array elements => .array (valueAll elements)
  | .struct fields => .struct (valueAll fields)

def valueAll : List Word → List Value
  | [] => []
  | word :: words => word.value :: valueAll words

end

mutual

/-- The word that the encoder writes for a value. -/
def Value.word : Value → Word
  | .raw bytes => .scalar bytes
  | .bool value => .bool (if value then 1 else 0)
  | .string bytes => .string bytes
  | .array elements => .array (wordAll elements)
  | .struct fields => .struct (wordAll fields)

def wordAll : List Value → List Word
  | [] => []
  | value :: values => value.word :: wordAll values

end

mutual

/-- Every `bool` in the word is spelled by 0 or 1. -/
def Word.Normal : Word → Prop
  | .scalar _ | .string _ => True
  | .bool byte => byte = 0 ∨ byte = 1
  | .array elements => NormalAll elements
  | .struct fields => NormalAll fields

def NormalAll : List Word → Prop
  | [] => True
  | word :: words => word.Normal ∧ NormalAll words

end

theorem valueAll_eq_map (words : List Word) : valueAll words = words.map Word.value := by
  induction words with
  | nil => rfl
  | cons word words ih => rw [valueAll, ih, List.map_cons]

theorem wordAll_eq_map (values : List Value) : wordAll values = values.map Value.word := by
  induction values with
  | nil => rfl
  | cons value values ih => rw [wordAll, ih, List.map_cons]

theorem bytesAll_eq_flatMap (words : List Word) : bytesAll words = words.flatMap Word.bytes := by
  induction words with
  | nil => rfl
  | cons word words ih => rw [bytesAll, ih, List.flatMap_cons]

@[simp]
theorem length_wordAll (values : List Value) : (wordAll values).length = values.length := by
  rw [wordAll_eq_map, List.length_map]

mutual

theorem Value.bytes_word : (value : Value) → value.word.bytes = value.wire
  | .raw _ | .bool _ | .string _ => rfl
  | .array elements => by
      rw [Value.word, Word.bytes, Value.wire, bytesAll_wordAll elements, length_wordAll]
  | .struct fields => by
      rw [Value.word, Word.bytes, Value.wire, bytesAll_wordAll fields]

theorem bytesAll_wordAll : (values : List Value) → bytesAll (wordAll values) = wireAll values
  | [] => rfl
  | value :: values => by
      rw [wordAll, bytesAll, wireAll, Value.bytes_word value, bytesAll_wordAll values]

end

mutual

theorem Value.value_word : (value : Value) → value.word.value = value
  | .raw _ | .string _ => rfl
  | .bool value => by cases value <;> rfl
  | .array elements => by rw [Value.word, Word.value, valueAll_wordAll elements]
  | .struct fields => by rw [Value.word, Word.value, valueAll_wordAll fields]

theorem valueAll_wordAll : (values : List Value) → valueAll (wordAll values) = values
  | [] => rfl
  | value :: values => by
      rw [wordAll, valueAll, Value.value_word value, valueAll_wordAll values]

end

mutual

/-- The normal words are those that the encoder writes. -/
theorem Word.normal_iff : (word : Word) → (word.Normal ↔ word.value.word = word)
  | .scalar _ | .string _ => by simp [Word.Normal, Word.value, Value.word]
  | .bool byte => by
      rw [Word.Normal, Word.value, Value.word, Word.bool.injEq]
      by_cases hzero : byte = 0 <;> simp [hzero, eq_comm]
  | .array elements => by
      rw [Word.Normal, Word.value, Value.word, Word.array.injEq]
      exact normalAll_iff elements
  | .struct fields => by
      rw [Word.Normal, Word.value, Value.word, Word.struct.injEq]
      exact normalAll_iff fields

theorem normalAll_iff : (words : List Word) → (NormalAll words ↔ wordAll (valueAll words) = words)
  | [] => by simp [NormalAll, valueAll, wordAll]
  | word :: words => by
      rw [NormalAll, valueAll, wordAll, List.cons.injEq, Word.normal_iff word,
        normalAll_iff words]

end

/-- A normal word is determined by its value. -/
theorem Word.Normal.eq_of_value_eq {left right : Word} (hleft : left.Normal)
    (hright : right.Normal) (hvalue : left.value = right.value) : left = right := by
  rw [← left.normal_iff.mp hleft, ← right.normal_iff.mp hright, hvalue]

/-! ## Objects -/

def loadFlat (readBool : Memory → ℕ → Bool) (memory : Memory) (kind : FacetType)
    (address : ℕ) : Value :=
  match kind with
  | .string =>
    .string (load memory (loadNat memory address 8) (loadNat memory (address + 8) 8))
  | .bool => .bool (readBool memory address)
  | _ => .raw (load memory address ((scalarWidth kind).getD 0))

/-- The words of the kinds without parts, one form for all integers. -/
theorem flatWord_cases {kind : FacetType} {word : Word} (hword : FlatWord kind word) :
    (kind = .string ∧ ∃ bytes, bytes.length < 2 ^ 32 ∧ word = .string bytes) ∨
      (kind = .bool ∧ ∃ byte, word = .bool byte) ∨
      (kind = .uuid ∧ ∃ bytes, bytes.length = 16 ∧ word = .scalar bytes) ∨
      ∃ int : IntKind, kind = int.facetType ∧
        ∃ bytes, bytes.length = int.width ∧ word = .scalar bytes := by
  have hint (int : IntKind) (hkind : FlatWord int.facetType word) :
      ∃ bytes, bytes.length = int.width ∧ word = .scalar bytes :=
    (flatWord_scalar (by cases int <;> rfl) word).mp hkind
  cases kind with
  | string => exact .inl ⟨rfl, (flatWord_string word).mp hword⟩
  | bool => exact .inr (.inl ⟨rfl, (flatWord_bool word).mp hword⟩)
  | uuid => exact .inr (.inr (.inl ⟨rfl, (flatWord_scalar rfl word).mp hword⟩))
  | u8 => exact .inr (.inr (.inr ⟨.u8, rfl, hint .u8 hword⟩))
  | u16 => exact .inr (.inr (.inr ⟨.u16, rfl, hint .u16 hword⟩))
  | u32 => exact .inr (.inr (.inr ⟨.u32, rfl, hint .u32 hword⟩))
  | u64 => exact .inr (.inr (.inr ⟨.u64, rfl, hint .u64 hword⟩))
  | i8 => exact .inr (.inr (.inr ⟨.i8, rfl, hint .i8 hword⟩))
  | i16 => exact .inr (.inr (.inr ⟨.i16, rfl, hint .i16 hword⟩))
  | i32 => exact .inr (.inr (.inr ⟨.i32, rfl, hint .i32 hword⟩))
  | i64 => exact .inr (.inr (.inr ⟨.i64, rfl, hint .i64 hword⟩))
  | handle | bytes | localPtr | enum | struct | array =>
    exact absurd hword (not_flatWord rfl (by decide) (by decide) word)

theorem loadFlat_facetType (readBool : Memory → ℕ → Bool) (memory : Memory) (int : IntKind)
    (address : ℕ) :
    loadFlat readBool memory int.facetType address = .raw (load memory address int.width) := by
  cases int <;> rfl

theorem codecTypeSize_facetType (int : IntKind) (metadata : FacetTypeMeta) :
    codecTypeSize int.facetType metadata = int.width := by
  cases metadata <;> cases int <;> rfl

def loadArray (memory : Memory) (elementSize : ℕ) (element : ℕ → Value) (address : ℕ) : Value :=
  .array ((List.range (loadNat memory (address + 8) 8)).map fun index =>
    element (loadNat memory address 8 + index * elementSize))

mutual

/-- The value of the object that the description finds at an address. -/
def loadValue (readBool : Memory → ℕ → Bool) (memory : Memory) (kind : FacetType) :
    FacetTypeMeta → ℕ → Value
  | .null =>
    match kind with
    | .array => loadArray memory 0 fun _ => .raw []
    | .struct => fun _ => .struct []
    | _ => loadFlat readBool memory kind
  | .mk metaKind underlying size elementType elementKind fields =>
    match codecKind kind (.mk metaKind underlying size elementType elementKind fields) with
    | .array =>
      loadArray memory (codecTypeSize (elementKindOf elementType elementKind) elementType)
        (loadValue readBool memory (elementKindOf elementType elementKind) elementType)
    | .struct => fun address => .struct (loadFields readBool memory fields address)
    | flat => loadFlat readBool memory flat

def loadFields (readBool : Memory → ℕ → Bool) (memory : Memory) :
    FacetStructFields → ℕ → List Value
  | .nil, _ => []
  | .cons typeKind type offset rest, address =>
    loadValue readBool memory typeKind type (address + offset) ::
      loadFields readBool memory rest address

end

/-- Something holds of an array object and of its elements. -/
def EverywhereArray (memory : Memory) (array : ℕ → Prop) (elementSize : ℕ)
    (element : ℕ → Prop) (address : ℕ) : Prop :=
  array address ∧ ∀ index < loadNat memory (address + 8) 8,
    element (loadNat memory address 8 + index * elementSize)

mutual

/-- Something holds of every part of the object without parts, and something of every
array in it. -/
def Everywhere (memory : Memory) (flat : FacetType → ℕ → Prop) (array : ℕ → Prop)
    (kind : FacetType) : FacetTypeMeta → ℕ → Prop
  | .null =>
    match kind with
    | .array => EverywhereArray memory array 0 fun _ => True
    | .struct => fun _ => True
    | _ => flat kind
  | .mk metaKind underlying size elementType elementKind fields =>
    match codecKind kind (.mk metaKind underlying size elementType elementKind fields) with
    | .array =>
      EverywhereArray memory array
        (codecTypeSize (elementKindOf elementType elementKind) elementType)
        (Everywhere memory flat array (elementKindOf elementType elementKind) elementType)
    | .struct => EverywhereFields memory flat array fields
    | other => flat other

def EverywhereFields (memory : Memory) (flat : FacetType → ℕ → Prop) (array : ℕ → Prop) :
    FacetStructFields → ℕ → Prop
  | .nil, _ => True
  | .cons typeKind type offset rest, address =>
    Everywhere memory flat array typeKind type (address + offset) ∧
      EverywhereFields memory flat array rest address

end

variable (memory : Memory)

/-- Every `bool` in the object that C reads as false is followed by three zero bytes. -/
def FalseBoolsPadded : FacetType → FacetTypeMeta → ℕ → Prop :=
  Everywhere memory
    (fun kind address => kind = .bool → cBool memory address = false →
      ∀ index < 3, memory (address + 1 + index) = 0)
    fun _ => True

/-- The encoder meets no null pointer here: not a uuid at the null address, and not a
string with contents and no pointer to them. -/
def NullFree (kind : FacetType) (address : ℕ) : Prop :=
  (kind = .uuid → address ≠ 0) ∧ (kind = .string → loadNat memory (address + 8) 8 ≠ 0 →
    loadNat memory address 8 ≠ 0)

/-- An array with elements has a pointer to them. -/
def ArrayNullFree (address : ℕ) : Prop :=
  loadNat memory (address + 8) 8 ≠ 0 → loadNat memory address 8 ≠ 0

/-- The encoder meets no null pointer in the object. -/
def WithoutNull : FacetType → FacetTypeMeta → ℕ → Prop :=
  Everywhere memory (NullFree memory) (ArrayNullFree memory)

def FieldsWithoutNull : FacetStructFields → ℕ → Prop :=
  EverywhereFields memory (NullFree memory) (ArrayNullFree memory)

section Forms

variable {readBool : Memory → ℕ → Bool} {memory : Memory} {flat : FacetType → ℕ → Prop}
  {array : ℕ → Prop} {kind : FacetType} {metadata : FacetTypeMeta}

theorem loadValue_flat (hflat : Flat kind metadata) :
    loadValue readBool memory kind metadata =
      loadFlat readBool memory (codecKind kind metadata) := by
  obtain ⟨harray, hstruct⟩ := hflat
  cases metadata <;> unfold loadValue <;> split <;> first | rfl | contradiction

theorem everywhere_flat (hflat : Flat kind metadata) :
    Everywhere memory flat array kind metadata = flat (codecKind kind metadata) := by
  obtain ⟨harray, hstruct⟩ := hflat
  cases metadata <;> unfold Everywhere <;> split <;> first | rfl | contradiction

end Forms

end FacetOS.Rpc
