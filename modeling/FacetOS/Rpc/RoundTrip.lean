import FacetOS.Rpc.Canonical

/-!
# The round trip of the codec

Encoding an object of an IDL type and decoding the bytes again.  The decoder leaves an
object that holds the word which the encoder saw.  What the encoder sees, and what C reads
in the decoded object, is compared with the value of the encoded object type by type: they
differ where a `bool` is read through an `int`, and where an enum is not carried in the
size that it has in C.
-/

namespace FacetOS.Rpc

open LittleEndian ByteMemory

/-! ## The objects of a type -/

/-- The size of the C object behind a description: an enum has the size that its metadata
records, whatever the width of its underlying type. -/
def objectSize (kind : FacetType) : FacetTypeMeta → ℕ
  | .null => codecTypeSize kind .null
  | .mk metaKind underlying size elementType elementKind fields =>
    if kind = .enum ∧ scalarWidth underlying ≠ none then size
    else codecTypeSize kind (.mk metaKind underlying size elementType elementKind fields)

theorem codecTypeSize_le_objectSize (kind : FacetType) (metadata : FacetTypeMeta)
    (hscalar : scalarWidth (codecKind kind metadata) = none) :
    codecTypeSize kind metadata ≤ objectSize kind metadata := by
  cases metadata with
  | null => exact le_rfl
  | mk metaKind underlying size elementType elementKind fields =>
    have hother : ¬ (kind = .enum ∧ scalarWidth underlying ≠ none) := by
      rintro ⟨rfl, hsome⟩
      exact hsome hscalar
    rw [objectSize, if_neg hother]

section Types

variable {source target : Memory} {input output size : ℕ} {type element : IdlType}

theorem load_eq_iff :
    load target output size = load source input size ↔
      ∀ index < size, target (output + index) = source (input + index) := by
  simp [load, List.map_inj_left]

/-- The word that the encoder sees in the object. -/
def IdlType.seen (type : IdlType) (memory : Memory) (address : ℕ) : Word :=
  (loadValue intBool memory type.kindFor type.typeMeta address).word

/-- The object holds a word as an object of the type. -/
def IdlType.Holds (type : IdlType) (word : Word) (address : ℕ) (memory : Memory) : Prop :=
  HoldsWord objectSize type.kindFor type.typeMeta (objectSize type.kindFor type.typeMeta) word
    address memory

/-- Where the object at `output` holds what the encoder saw in the object at `input`, the
two have the same value exactly if the false `bool`s are padded and the bytes of enums that
were not carried agree. -/
def IdlType.Compares (source target : Memory) (type : IdlType) : Prop :=
  ∀ input output, Spells Counted type.kindFor type.typeMeta (type.seen source input) →
    type.Holds (type.seen source input) output target →
    (type.load target output = type.load source input ↔
      type.FalseBoolsPadded source input ∧ type.EnumsKept source target input output)

theorem scalarWidth_facetType (kind : IntKind) : scalarWidth kind.facetType = some kind.width := by
  cases kind <;> rfl

theorem flat_of_scalar {kind : FacetType} {metadata : FacetTypeMeta}
    (hwidth : scalarWidth (codecKind kind metadata) = some size) : Flat kind metadata := by
  constructor <;> intro hkind <;> rw [hkind] at hwidth <;> cases hwidth

/-- Where a scalar agrees with what the encoder saw: in the bytes that are both carried
and part of the object. -/
theorem holdsWord_scalar {kind : FacetType} {metadata : FacetTypeMeta} {room : ℕ}
    {sizeOf : FacetType → FacetTypeMeta → ℕ}
    (hwidth : scalarWidth (codecKind kind metadata) = some size)
    (hholds : HoldsWord sizeOf kind metadata room
      (loadValue intBool source kind metadata input).word output target) :
    ∀ index < size, index < room → target (output + index) = source (input + index) := by
  rw [holdsWord_flat (flat_of_scalar hwidth), loadValue_flat (flat_of_scalar hwidth),
    loadFlat_scalar hwidth, Value.word, HoldsFlat, length_load, take_load, take_load,
    load_eq_iff] at hholds
  intro index hindex hinside
  exact hholds index (by omega)

theorem compares_scalar (hwidth : scalarWidth type.kindFor = some size)
    (hmeta : type.typeMeta = .null)
    (hload : ∀ memory address, type.load memory address = .raw (load memory address size))
    (hpadded : ∀ input, type.FalseBoolsPadded source input)
    (hkept : ∀ input output, type.EnumsKept source target input output) :
    type.Compares source target := by
  intro input output _ hholds
  have hscalar : scalarWidth (codecKind type.kindFor type.typeMeta) = some size := by
    rwa [hmeta]
  have hagree := holdsWord_scalar hscalar hholds
  rw [hmeta, objectSize, codecTypeSize_scalar hwidth] at hagree
  have hbytes : load target output size = load source input size :=
    load_eq_iff.mpr fun index hindex => hagree index hindex hindex
  simp [hload, hbytes, hpadded, hkept]

/-- The codec has no word for a handle or a pointer. -/
theorem compares_of_not_spells (hnone : ∀ word, ¬ Spells Counted type.kindFor type.typeMeta word) :
    type.Compares source target :=
  fun _ _ hword => absurd hword (hnone _)

theorem compares_bool : IdlType.bool.Compares source target := by
  intro input output _ hholds
  have hread : cBool target output = intBool source input := by
    refine (show cBool target output = decide ((if intBool source input then 1 else 0 : UInt8) ≠ 0)
      from hholds).trans ?_
    cases intBool source input <;> rfl
  rw [IdlType.load, IdlType.load, Value.bool.injEq, hread, intBool_eq_cBool_iff]
  simp [IdlType.FalseBoolsPadded, IdlType.EnumsKept]

theorem compares_string : IdlType.string.Compares source target := by
  intro input output _ hholds
  obtain ⟨hcount, -, hbytes⟩ := hholds
  rw [length_load] at hcount hbytes
  simp [IdlType.load, hcount, hbytes, IdlType.FalseBoolsPadded, IdlType.EnumsKept]

theorem compares_enum (underlying : IntKind) (imported : Bool) :
    (IdlType.enum underlying imported).Compares source target := by
  intro input output _ hholds
  rw [IdlType.load, IdlType.load, Value.raw.injEq, load_eq_iff, IdlType.EnumsKept,
    IdlType.FalseBoolsPadded, true_and]
  cases imported with
  | true => simp
  | false =>
    have hwidth : scalarWidth (codecKind (IdlType.enum underlying false).kindFor
        (IdlType.enum underlying false).typeMeta) = some underlying.width :=
      scalarWidth_facetType underlying
    have hagree := holdsWord_scalar hwidth hholds
    have hsize : objectSize (IdlType.enum underlying false).kindFor
        (IdlType.enum underlying false).typeMeta = 4 :=
      if_pos ⟨rfl, by rw [scalarWidth_facetType]; simp⟩
    rw [hsize] at hagree
    constructor
    · exact fun hall index hindex _ => hall index hindex
    · intro hrest index hindex
      by_cases hcarried : index < underlying.width
      · exact hagree index hcarried hindex
      · exact hrest index hindex fun _ => Nat.le_of_not_lt hcarried

/-! ## Arrays -/

theorem elementKindOf_typeMeta (hother : type.enumWidth = none) :
    elementKindOf type.typeMeta type.kindFor = type.kindFor := by
  cases type <;> first | rfl | cases hother

theorem codecTypeSize_typeMeta {word : Word} (hother : type.enumWidth = none)
    (hword : Spells Counted type.kindFor type.typeMeta word) :
    codecTypeSize type.kindFor type.typeMeta = type.cSize ∧
      objectSize type.kindFor type.typeMeta = type.cSize := by
  cases type with
  | int kind => cases kind <;> exact ⟨rfl, rfl⟩
  | enum => cases hother
  | handle | localPtr => exact absurd hword (not_flatWord rfl (by decide) (by decide) word)
  | _ => exact ⟨rfl, rfl⟩

/-- The bytes of an array, element by element. -/
theorem forall_blocks (holds : ℕ → Prop) (count size : ℕ) :
    (∀ index < count, ∀ offset < size, holds (index * size + offset)) ↔
      ∀ position < count * size, holds position := by
  constructor
  · intro hall position hposition
    have hpositive : 0 < size := Nat.pos_of_ne_zero fun hzero => by simp [hzero] at hposition
    have hat := hall (position / size) ((Nat.div_lt_iff_lt_mul hpositive).mpr hposition)
      (position % size) (Nat.mod_lt _ hpositive)
    rwa [Nat.div_add_mod'] at hat
  · intro hall index hindex offset hoffset
    apply hall
    calc index * size + offset < index * size + size := Nat.add_lt_add_left hoffset _
      _ = (index + 1) * size := (Nat.succ_mul index size).symm
      _ ≤ count * size := Nat.mul_le_mul_right size hindex

/-- The elements that the encoder sees and those that the decoder has left. -/
theorem HoldsArray.elements {elementSize : ℕ} {language : Word → Prop} {read : ℕ → Value}
    {holds : Word → ℕ → Memory → Prop} {words : List Word}
    (hwords : (loadArray source elementSize read input).word = .array words)
    (hall : ∀ part ∈ words, language part)
    (hholds : HoldsArray elementSize holds words output target) :
    loadNat target (output + 8) 8 = loadNat source (input + 8) 8 ∧
      ∀ index < loadNat source (input + 8) 8,
        language (read (loadNat source input 8 + index * elementSize)).word ∧
          holds (read (loadNat source input 8 + index * elementSize)).word
            (loadNat target output 8 + index * elementSize) target := by
  rw [loadArray, Value.word, Word.array.injEq, wordAll_eq_map, List.map_map] at hwords
  have hcount : words.length = loadNat source (input + 8) 8 := by
    simp [← hwords]
  have hword (index : ℕ) (hindex : index < words.length) :
      words[index] = (read (loadNat source input 8 + index * elementSize)).word := by
    simp [← hwords]
  obtain ⟨hlength, -, hparts⟩ := hholds
  refine ⟨hlength.trans hcount, fun index hindex => ?_⟩
  rw [← hcount] at hindex
  have hat := hparts.at index hindex
  rw [hword index hindex, Nat.zero_add] at hat
  exact ⟨hword index hindex ▸ hall _ (List.getElem_mem hindex), hat⟩

/-- The codec carries an array of enums in the width of the underlying type, C reads it in
steps of four bytes. -/
theorem enums_load_iff (underlying : IntKind) (imported : Bool) {count data other : ℕ}
    (hparts : ∀ index < count, HoldsWord objectSize .enum
      (IdlType.enum underlying imported).typeMeta
      underlying.width (loadValue intBool source .enum (IdlType.enum underlying imported).typeMeta
        (data + index * underlying.width)).word (other + index * underlying.width) target) :
    (∀ index < count, (IdlType.enum underlying imported).load target (other + index * 4) =
        (IdlType.enum underlying imported).load source (data + index * 4)) ↔
      ∀ index < count * 4, count * underlying.width ≤ index →
        target (other + index) = source (data + index) := by
  have hcarried := (forall_blocks (fun offset => target (other + offset) = source (data + offset))
    count underlying.width).mp fun index hindex offset hoffset => by
      rw [← Nat.add_assoc, ← Nat.add_assoc]
      exact holdsWord_scalar (show scalarWidth (codecKind .enum
        (IdlType.enum underlying imported).typeMeta) = _ from scalarWidth_facetType underlying)
        (hparts index hindex) offset hoffset hoffset
  have hread := forall_blocks (fun offset => target (other + offset) = source (data + offset))
    count 4
  simp only [IdlType.load, Value.raw.injEq, load_eq_iff, Nat.add_assoc, hread]
  constructor
  · exact fun hall index hindex _ => hall index hindex
  · intro hrest index hindex
    by_cases hinside : index < count * underlying.width
    · exact hcarried index hinside
    · exact hrest index hindex (Nat.le_of_not_lt hinside)

theorem compares_array (helement : element.Compares source target) :
    (IdlType.array element).Compares source target := by
  intro input output hword hholds
  rw [IdlType.kindFor, IdlType.typeMeta, Spells] at hword
  obtain ⟨words, hwords, -, -, hall⟩ := hword
  rw [IdlType.Holds, hwords, IdlType.kindFor, IdlType.typeMeta] at hholds
  simp only [HoldsWord, codecKind] at hholds
  rw [IdlType.seen, IdlType.kindFor, IdlType.typeMeta, loadValue] at hwords
  obtain ⟨hlength, hparts⟩ := hholds.elements hwords hall
  rw [IdlType.load, IdlType.load, hlength, Value.array.injEq, List.map_inj_left,
    IdlType.FalseBoolsPadded]
  simp only [List.mem_range]
  cases henum : element.enumWidth with
  | none =>
    rw [elementKindOf_typeMeta henum] at hparts
    simp only [IdlType.EnumsKept, henum]
    rw [← forall₂_and]
    refine forall₂_congr fun index hindex => ?_
    obtain ⟨hpart, hholds⟩ := hparts index hindex
    obtain ⟨hstride, hroom⟩ := codecTypeSize_typeMeta henum hpart
    rw [hstride] at hpart hholds
    apply helement _ _ hpart
    rwa [IdlType.Holds, hroom]
  | some width =>
    cases element with
    | enum underlying imported =>
      cases henum
      have hstride : codecTypeSize .enum (IdlType.enum underlying imported).typeMeta =
          underlying.width := by
        cases underlying <;> rfl
      simp only [IdlType.EnumsKept, IdlType.enumWidth, IdlType.FalseBoolsPadded]
      rw [← enums_load_iff underlying imported fun index hindex => hstride ▸
        (hparts index hindex).2]
      simp [IdlType.cSize]
    | _ => cases henum

/-! ## Structs -/

def IdlFields.Compares (source target : Memory) (fields : IdlFields) : Prop :=
  ∀ input output, SpellsFields Counted fields.fieldsMeta
      (wordAll (loadFields intBool source fields.fieldsMeta input)) →
    HoldsFields objectSize fields.fieldsMeta
      (wordAll (loadFields intBool source fields.fieldsMeta input)) output target →
    (fields.load target output = fields.load source input ↔
      fields.FalseBoolsPadded source input ∧ fields.EnumsKept source target input output)

theorem compares_cons {offset : ℕ} {rest : IdlFields} (htype : type.Compares source target)
    (hrest : rest.Compares source target) :
    (IdlFields.cons offset type rest).Compares source target := by
  intro input output hwords hholds
  rw [IdlFields.fieldsMeta, loadFields, wordAll] at hwords hholds
  obtain ⟨word, tail, hcons, hword, htail⟩ := hwords
  obtain ⟨rfl, rfl⟩ := List.cons.inj hcons
  rw [IdlFields.load, IdlFields.load, List.cons.injEq, htype _ _ hword hholds.1,
    hrest _ _ htail hholds.2, IdlFields.FalseBoolsPadded, IdlFields.EnumsKept, and_and_and_comm]

theorem compares_struct {fields : IdlFields} (hfields : fields.Compares source target) :
    (IdlType.struct size fields).Compares source target := by
  intro input output hword hholds
  rw [IdlType.Holds, IdlType.seen, IdlType.kindFor, IdlType.typeMeta, loadValue] at hholds
  rw [IdlType.seen, IdlType.kindFor, IdlType.typeMeta, Spells, loadValue] at hword
  obtain ⟨words, hwords, hspells⟩ := hword
  obtain rfl := Word.struct.inj hwords
  simp only [HoldsWord, codecKind] at hholds
  rw [IdlType.load, IdlType.load, Value.struct.injEq]
  exact hfields input output hspells hholds

end Types

mutual

theorem IdlType.compares (source target : Memory) : (type : IdlType) → type.Compares source target
  | .int kind => compares_scalar (scalarWidth_facetType kind) rfl (fun _ _ => rfl)
      (fun _ => trivial) fun _ _ => trivial
  | .uuid => compares_scalar rfl rfl (fun _ _ => rfl) (fun _ => trivial) fun _ _ => trivial
  | .bool => compares_bool
  | .string => compares_string
  | .enum underlying imported => compares_enum underlying imported
  | .array element => compares_array (element.compares source target)
  | .struct _ fields => compares_struct (fields.compares source target)
  | .handle | .localPtr => compares_of_not_spells fun word =>
    not_flatWord rfl (by decide) (by decide) word

theorem IdlFields.compares (source target : Memory) :
    (fields : IdlFields) → fields.Compares source target
  | .nil => fun _ _ _ _ => by
    simp [IdlFields.load, IdlFields.FalseBoolsPadded, IdlFields.EnumsKept]
  | .cons _ type rest => compares_cons (type.compares source target) (rest.compares source target)

end

/-! ## The round trip -/

theorem decodes_placed (allocator : Allocator) (type : IdlType) {payload : List UInt8}
    {word : Word} {output limit : ℕ} (state : DecodeState)
    (hword : Spells Counted type.kindFor type.typeMeta word)
    (hplaced : Placed objectSize type.kindFor type.typeMeta limit word)
    (hcarries : Carries payload state.offset word.bytes)
    (howned : Owned ⟨output, limit⟩ state.heap.live) :
    Rebuilds (decodeValue allocator payload type.kindFor type.typeMeta output state) state
      word.bytes.length ⟨output, limit⟩ ⟨output, objectSize type.kindFor type.typeMeta⟩
      (type.Holds word output) :=
  (decodeValue_holds allocator payload codecTypeSize_le_objectSize fun _ _ => id).1 _ _ word
    limit _ output state hword hplaced (codecTypeSize_le_objectSize _ _) hcarries howned

/-- Decoding the written bytes between arbitrary others succeeds, consumes exactly
these bytes and yields the value of the object at `input`. -/
def RoundTrips (allocator : Allocator) (type : IdlType) (memory : Memory) (input : ℕ)
    (before written after : List UInt8) (heap : Heap) (output : ℕ) : Prop :=
  let result := decodeValue allocator (before ++ written ++ after) type.kindFor type.typeMeta
    output ⟨heap, before.length⟩
  result.1 = .ok () ∧ result.2.offset = before.length + written.length ∧
    type.load result.2.heap.memory output = type.load memory input

/-- A struct of a padded false `bool` and the string "hi". -/
def flagAndName : IdlType :=
  .struct 24 (.cons 0 .bool (.cons 8 .string .nil))

def flagAndNameHeap : Heap :=
  ⟨store (storeNat (storeNat (fun _ => 0) 24 8 64) 32 8 2) 64 [104, 105],
    [⟨16, 24⟩, ⟨64, 2⟩, ⟨128, 24⟩]⟩

/-- An array of the two values false and true. -/
def boolPairHeap : Heap :=
  ⟨store (storeNat (storeNat (fun _ => 0) 16 8 64) 24 8 2) 64 [0, 1],
    [⟨16, 16⟩, ⟨64, 2⟩, ⟨128, 16⟩]⟩

end FacetOS.Rpc
