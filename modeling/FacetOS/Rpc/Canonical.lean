import FacetOS.Rpc.Encoding

/-!
# Decoding and encoding again

The decoder accepts more spellings of a `bool` than the encoder writes, the encoder reads
a `bool` through an `int`, and fields that overlap as the codec measures them overwrite
each other.  A decoded value is therefore encoded as the bytes it was decoded from exactly
if its word is normal and the encoder still sees the value of the word.
-/

namespace FacetOS.Rpc

open LittleEndian ByteMemory

variable {metadata : FacetTypeMeta} {sizeOf : FacetType → FacetTypeMeta → ℕ}
  {fits : ℕ → ℕ → Prop}

section Forms

variable {kind metaKind underlying elementKind : FacetType} {size : ℕ}
  {elementType : FacetTypeMeta} {fields : FacetStructFields}

theorem codecTypeSize_struct
    (hkind : codecKind kind (.mk metaKind underlying size elementType elementKind fields) =
      .struct) :
    codecTypeSize kind (.mk metaKind underlying size elementType elementKind fields) = size := by
  unfold codecTypeSize
  rw [hkind]

theorem codecTypeSize_array (hkind : codecKind kind metadata = .array) :
    codecTypeSize kind metadata = 16 := by
  unfold codecTypeSize
  rw [hkind]

theorem codecTypeSize_codecKind (kind : FacetType) (metadata : FacetTypeMeta) :
    codecTypeSize (codecKind kind metadata) metadata = codecTypeSize kind metadata := by
  have hkind : codecKind (codecKind kind metadata) metadata = codecKind kind metadata := by
    by_cases henum : kind = .enum <;> cases metadata <;> simp [codecKind, henum]
  unfold codecTypeSize
  rw [hkind]

end Forms

/-! ## Where a word is put -/

mutual

/-- The decoder of the word stores nothing behind the limit: the fields of every struct
lie one behind the other, as far as `sizeOf` says that they are kept, and no field reaches
out of the object.  The elements of an array are put into a block of their own. -/
def Placed (sizeOf : FacetType → FacetTypeMeta → ℕ) (kind : FacetType) :
    FacetTypeMeta → ℕ → Word → Prop
  | .null, limit, _ => codecTypeSize kind .null ≤ limit
  | .mk metaKind underlying size elementType elementKind fields, limit, word =>
    match codecKind kind (.mk metaKind underlying size elementType elementKind fields), word with
    | .array, .array words =>
      let elementSize := codecTypeSize (elementKindOf elementType elementKind) elementType
      16 ≤ limit ∧ words.length * elementSize ≤ sizeMax ∧
        ∀ part ∈ words,
          Placed sizeOf (elementKindOf elementType elementKind) elementType elementSize part
    | .struct, .struct words => size ≤ limit ∧ PlacedFields sizeOf 0 size limit fields words
    | _, _ =>
      codecTypeSize kind (.mk metaKind underlying size elementType elementKind fields) ≤ limit

def PlacedFields (sizeOf : FacetType → FacetTypeMeta → ℕ) (first size limit : ℕ) :
    FacetStructFields → List Word → Prop
  | .cons typeKind type offset rest, word :: words =>
    first ≤ offset ∧ Placed sizeOf typeKind type (limit - offset) word ∧
      PlacedFields sizeOf (offset + sizeOf typeKind type) size limit rest words
  | _, _ => first ≤ size

end

theorem PlacedFields.le : {fields : FacetStructFields} → {words : List Word} →
    {first size limit : ℕ} → PlacedFields sizeOf first size limit fields words → first ≤ size
  | .nil, [], _, _, _, hplaced | .nil, _ :: _, _, _, _, hplaced
  | .cons _ _ _ _, [], _, _, _, hplaced => hplaced
  | .cons _ _ _ _, _ :: _, _, _, _, ⟨hfirst, _, hplaced⟩ =>
    hfirst.trans ((Nat.le_add_right _ _).trans hplaced.le)

/-- The object of a kind without parts holds the word, a scalar in its first bytes. -/
def HoldsFlat (room : ℕ) : Word → ℕ → Memory → Prop
  | .scalar bytes, address, memory => (load memory address bytes.length).take room = bytes.take room
  | .bool byte, address, memory => cBool memory address = decide (byte ≠ 0)
  | .string bytes, address, memory =>
    loadNat memory (address + 8) 8 = bytes.length ∧ loadNat memory address 8 ≠ 0 ∧
      load memory (loadNat memory address 8) bytes.length = bytes
  | .array _, _, _ | .struct _, _, _ => False

def HoldsArray (elementSize : ℕ) (holds : Word → ℕ → Memory → Prop) (words : List Word)
    (address : ℕ) (memory : Memory) : Prop :=
  loadNat memory (address + 8) 8 = words.length ∧
    (words ≠ [] → loadNat memory address 8 ≠ 0) ∧
    HoldAll holds (loadNat memory address 8) elementSize memory 0 words

mutual

/-- The object at an address holds the word, every scalar field in the bytes that
`sizeOf` leaves to it. -/
def HoldsWord (sizeOf : FacetType → FacetTypeMeta → ℕ) (kind : FacetType) :
    FacetTypeMeta → ℕ → Word → ℕ → Memory → Prop
  | .null, room, word =>
    match kind, word with
    | .array, .array words => HoldsArray 0 (fun _ _ _ => True) words
    | _, word => HoldsFlat room word
  | .mk metaKind underlying size elementType elementKind fields, room, word =>
    match codecKind kind (.mk metaKind underlying size elementType elementKind fields), word with
    | .array, .array words =>
      let elementSize := codecTypeSize (elementKindOf elementType elementKind) elementType
      HoldsArray elementSize (HoldsWord sizeOf (elementKindOf elementType elementKind) elementType
        elementSize) words
    | .struct, .struct words => HoldsFields sizeOf fields words
    | _, word => HoldsFlat room word

def HoldsFields (sizeOf : FacetType → FacetTypeMeta → ℕ) :
    FacetStructFields → List Word → ℕ → Memory → Prop
  | .cons typeKind type offset rest, word :: words, address, memory =>
    HoldsWord sizeOf typeKind type (sizeOf typeKind type) word (address + offset) memory ∧
      HoldsFields sizeOf rest words address memory
  | _, _, _, _ => True

end

theorem holdsWord_flat {kind : FacetType} (hflat : Flat kind metadata) (room : ℕ) (word : Word) :
    HoldsWord sizeOf kind metadata room word = HoldsFlat room word := by
  obtain ⟨harray, hstruct⟩ := hflat
  cases metadata <;> unfold HoldsWord <;> split <;> first | rfl | contradiction

theorem placed_flat {kind : FacetType} {limit : ℕ} {word : Word} (hflat : Flat kind metadata)
    (hplaced : Placed sizeOf kind metadata limit word) : codecTypeSize kind metadata ≤ limit := by
  obtain ⟨harray, hstruct⟩ := hflat
  cases metadata <;> unfold Placed at hplaced
  · exact hplaced
  · split at hplaced <;> first | exact hplaced | contradiction

/-! ## What the decoder leaves -/

section Decoder

variable {allocator : Allocator} {payload : List UInt8} {state : DecodeState}
  {output limit room : ℕ}

theorem codecTypeSize_scalar {kind : FacetType} {size : ℕ} (hwidth : scalarWidth kind = some size) :
    codecTypeSize kind metadata = size := by
  cases kind <;> cases hwidth <;> cases metadata <;> rfl

theorem decodeFlat_scalar {kind : FacetType} {size : ℕ} (hwidth : scalarWidth kind = some size) :
    decodeFlat allocator payload kind (codecTypeSize kind metadata) output state =
      decodeScalar payload size (leBytes size) output state := by
  cases kind with
  | uuid =>
    cases hwidth
    exact decodeFlat_uuid
  | u8 | u16 | u32 | u64 | i8 | i16 | i32 | i64 =>
    cases hwidth
    cases metadata <;> rfl
  | _ => cases hwidth

theorem decodeFlat_rebuilds {kind : FacetType} {word : Word} (hword : FlatWord kind word)
    (hcarries : Carries payload state.offset word.bytes)
    (hlimit : codecTypeSize kind metadata ≤ limit)
    (hroom : scalarWidth kind = none → codecTypeSize kind metadata ≤ room)
    (howned : Owned ⟨output, limit⟩ state.heap.live) :
    Rebuilds (decodeFlat allocator payload kind (codecTypeSize kind metadata) output state)
      state word.bytes.length ⟨output, limit⟩ ⟨output, room⟩ (HoldsFlat room word output) := by
  cases word with
  | scalar bytes =>
    rw [codecTypeSize_scalar hword] at hlimit
    rw [decodeFlat_scalar hword]
    exact decodeScalar_rebuilds _ output room hcarries rfl (leBytes_leValue bytes) hlimit
  | bool byte =>
    cases hword
    have hone : codecTypeSize .bool metadata = 1 := by
      cases metadata <;> rfl
    rw [hone] at hlimit hroom
    rw [hone, decodeFlat]
    have hwritten : (fun value => [if value ≠ 0 then 1 else 0]) (leValue [byte]) =
        ([if byte ≠ 0 then 1 else 0] : List UInt8) := by
      have hzero : leValue [byte] = 0 ↔ byte = 0 := by
        simp [leValue, ← UInt8.toNat_inj]
      simp only [ne_eq, hzero]
    apply (decodeScalar_rebuilds _ output room hcarries rfl hwritten hlimit).imp
    intro memory hload
    rw [List.take_of_length_le (by simpa using hroom rfl),
      List.take_of_length_le (by simpa using hroom rfl)] at hload
    have hbyte : loadNat memory output 1 = leValue [if byte ≠ 0 then 1 else 0] :=
      congrArg leValue hload
    rw [HoldsFlat, cBool, hbyte]
    by_cases hzero : byte = 0 <;> simp [hzero, leValue]
  | string bytes =>
    obtain ⟨rfl, hlength⟩ := hword
    have hsize : codecTypeSize .string metadata = 16 := by
      cases metadata <;> rfl
    rw [hsize] at hlimit hroom
    have hwithin : Block.Within ⟨output, 16⟩ ⟨output, limit⟩ :=
      Block.within_of_le le_rfl (Nat.add_le_add_left hlimit output)
    exact (decodeString_rebuilds hcarries hlength (howned.within hwithin)).mono hwithin
      (Block.within_of_le le_rfl (Nat.add_le_add_left (hroom rfl) output))
  | array _ | struct _ => exact hword.elim

theorem decodeArray_holds {elementSize : ℕ} {decodeElement : ℕ → DecodeState → Decoded}
    {holds : Word → ℕ → Memory → Prop} {words : List Word}
    (releaseElement : ℕ → DecodeState → DecodeState)
    (hstep : ∀ word ∈ words, ∀ address state, Carries payload state.offset word.bytes →
      Owned ⟨address, elementSize⟩ state.heap.live →
      Rebuilds (decodeElement address state) state word.bytes.length ⟨address, elementSize⟩
        ⟨address, elementSize⟩ (holds word address))
    (hcount : words.length < 2 ^ 32) (hsize : Counted words.length elementSize)
    (hbytes : words.length * elementSize ≤ sizeMax)
    (hcarries : Carries payload state.offset (Word.array words).bytes)
    (hlimit : 16 ≤ limit) (hroom : 16 ≤ room)
    (howned : Owned ⟨output, limit⟩ state.heap.live) :
    Rebuilds (decodeArray allocator payload elementSize decodeElement releaseElement output state)
      state (Word.array words).bytes.length ⟨output, limit⟩ ⟨output, room⟩
      (HoldsArray elementSize holds words output) := by
  rw [Word.bytes, bytesAll_eq_flatMap] at hcarries ⊢
  have hwithin : Block.Within ⟨output, 16⟩ ⟨output, limit⟩ :=
    Block.within_of_le le_rfl (Nat.add_le_add_left hlimit output)
  exact (decodeArray_rebuilds allocator releaseElement hstep hcarries hcount hsize hbytes
    (howned.within hwithin)).mono hwithin
      (Block.within_of_le le_rfl (Nat.add_le_add_left hroom output))

end Decoder

/-- Decoding a word that is placed inside the limit leaves an object that holds it. -/
theorem decodeValue_holds (allocator : Allocator) (payload : List UInt8)
    (hsize : ∀ kind metadata, scalarWidth (codecKind kind metadata) = none →
      codecTypeSize kind metadata ≤ sizeOf kind metadata)
    (hfits : ∀ count size, fits count size → Counted count size) :
    (∀ kind metadata word limit room output (state : DecodeState),
      Spells fits kind metadata word → Placed sizeOf kind metadata limit word →
      (scalarWidth (codecKind kind metadata) = none → codecTypeSize kind metadata ≤ room) →
      Carries payload state.offset word.bytes → Owned ⟨output, limit⟩ state.heap.live →
      Rebuilds (decodeValue allocator payload kind metadata output state) state
        word.bytes.length ⟨output, limit⟩ ⟨output, room⟩
        (HoldsWord sizeOf kind metadata room word output)) ∧
      ∀ fields words first size limit output (state : DecodeState),
        SpellsFields fits fields words → PlacedFields sizeOf first size limit fields words →
        size ≤ limit → Carries payload state.offset (bytesAll words) →
        Owned ⟨output + first, limit - first⟩ state.heap.live →
        Rebuilds (decodeFields allocator payload fields output state) state
          (bytesAll words).length ⟨output + first, limit - first⟩ ⟨output + first, size - first⟩
          (HoldsFields sizeOf fields words output) := by
  refine description_induction
    (fun hflat word limit room output state hword hplaced hroom hcarries howned => ?_)
    (fun word limit room output state hword hplaced hroom hcarries howned => ?_)
    (fun _ _ _ _ _ hword => hword.elim)
    (fun harray helement word limit room output state hword hplaced hroom hcarries howned => ?_)
    (fun hstruct hparts word limit room output state hword hplaced hroom hcarries howned => ?_) ?_
    (fun hvalue hrest words first size limit output state hwords hplaced hinner hcarries howned =>
      ?_)
  · have hlimit := placed_flat hflat hplaced
    rw [spells_flat hflat] at hword
    rw [← codecTypeSize_codecKind] at hlimit hroom
    rw [holdsWord_flat hflat, decodeValue_flat hflat]
    exact decodeFlat_rebuilds hword hcarries hlimit hroom howned
  · obtain ⟨words, rfl, hcount, hcounted, hnone⟩ := hword
    rw [decodeValue]
    exact decodeArray_holds _ (fun word hword => (hnone word hword).elim) hcount
      (hfits _ _ hcounted) (Nat.zero_le _) hcarries hplaced (hroom rfl) howned
  · rw [Spells, harray] at hword
    obtain ⟨words, rfl, hcount, hcounted, hall⟩ := hword
    rw [codecTypeSize_array harray, harray] at hroom
    simp only [Placed, harray] at hplaced
    obtain ⟨hlimit, hbytes, hparts⟩ := hplaced
    simp only [HoldsWord, harray]
    rw [decodeValue, harray]
    exact decodeArray_holds _ (fun word hword address state =>
      helement word _ _ address state (hall word hword) (hparts word hword) fun _ => le_rfl)
      hcount (hfits _ _ hcounted) hbytes hcarries hlimit (hroom rfl) howned
  · rw [Spells, hstruct] at hword
    obtain ⟨words, rfl, hwords⟩ := hword
    rw [codecTypeSize_struct hstruct, hstruct] at hroom
    simp only [Placed, hstruct] at hplaced
    simp only [HoldsWord, hstruct]
    rw [decodeValue, hstruct]
    exact (hparts words 0 _ limit output state hwords hplaced.2 hplaced.1 hcarries howned).mono
      (fun _ hcovers => hcovers)
      (Block.within_of_le le_rfl (Nat.add_le_add_left (hroom rfl) output))
  · rintro _ first size limit output state rfl - - - -
    exact .inr ⟨rfl, rfl, Keeps.refl _ _ _⟩
  obtain ⟨word, tail, rfl, hword, htail⟩ := hwords
  obtain ⟨hfirst, hpart, hlater⟩ := hplaced
  rw [bytesAll] at hcarries ⊢
  rw [decodeFields, List.length_append]
  have hhead := hvalue word _ _ _ state hword hpart (hsize _ _) hcarries.left
    (howned.within (Block.part_within hfirst (by have hend := hlater.le; omega)))
  apply hhead.behind _ hfirst hlater.le hinner howned
  intro after hoffset hlive
  have hcarried := hcarries.right
  rw [← hoffset] at hcarried
  exact hrest tail _ size limit output after htail hlater hinner hcarried hlive

/-! ## The value of what is left -/

section Value

variable {memory : Memory} {address : ℕ}

theorem HoldAll.at {Tree : Type} {holds : Tree → ℕ → Memory → Prop} {data size : ℕ}
    {trees : List Tree} {first : ℕ} (hall : HoldAll holds data size memory first trees)
    (index : ℕ) (hindex : index < trees.length) :
    holds trees[index] (data + (first + index) * size) memory := by
  induction trees generalizing first index with
  | nil => cases hindex
  | cons tree rest ih =>
    cases index with
    | zero => exact hall.1
    | succ index =>
      have hlater := ih hall.2 index (Nat.lt_of_succ_lt_succ hindex)
      rwa [Nat.add_right_comm, Nat.add_assoc] at hlater

theorem loadFlat_scalar {kind : FacetType} {size : ℕ} {readBool : Memory → ℕ → Bool}
    (hwidth : scalarWidth kind = some size) :
    loadFlat readBool memory kind address = .raw (load memory address size) := by
  cases kind <;> cases hwidth <;> rfl

theorem HoldsFlat.value {kind : FacetType} {word : Word}
    (hholds : HoldsFlat (codecTypeSize kind metadata) word address memory)
    (hword : FlatWord kind word) :
    loadFlat cBool memory kind address = word.value ∧
      (address ≠ 0 → NullFree memory kind address) := by
  cases word with
  | scalar bytes =>
    have hstring : kind ≠ .string := by
      rintro rfl
      cases hword
    rw [HoldsFlat, codecTypeSize_scalar hword, List.take_of_length_le length_load.le,
      List.take_length] at hholds
    refine ⟨?_, fun haddress => ⟨fun _ => haddress, fun hkind => absurd hkind hstring⟩⟩
    rw [loadFlat_scalar hword, hholds, Word.value]
  | bool byte =>
    cases hword
    exact ⟨congrArg Value.bool hholds, fun _ => ⟨by rintro ⟨⟩, by rintro ⟨⟩⟩⟩
  | string bytes =>
    obtain ⟨rfl, -⟩ := hword
    obtain ⟨hcount, hpointer, hbytes⟩ := hholds
    refine ⟨?_, fun _ => ⟨by rintro ⟨⟩, fun _ _ => hpointer⟩⟩
    rw [loadFlat, hcount, hbytes, Word.value]
  | array _ | struct _ => exact hword.elim

theorem HoldsArray.value {elementSize : ℕ} {language : Word → Prop} {words : List Word}
    {holds : Word → ℕ → Memory → Prop} {element : ℕ → Value} {inside : ℕ → Prop}
    (hstep : ∀ word address, language word → holds word address memory →
      element address = word.value ∧ (address ≠ 0 → inside address))
    (hall : ∀ part ∈ words, language part)
    (hholds : HoldsArray elementSize holds words address memory) :
    loadArray memory elementSize element address = (Word.array words).value ∧
      EverywhereArray memory (ArrayNullFree memory) elementSize inside address := by
  obtain ⟨hcount, hdata, hwords⟩ := hholds
  have hat (index : ℕ) (hindex : index < words.length) :=
    hstep _ _ (hall _ (List.getElem_mem hindex)) (hwords.at index hindex)
  simp only [Nat.zero_add] at hat
  rw [loadArray, EverywhereArray, ArrayNullFree, hcount]
  refine ⟨?_, fun hlength => hdata fun hnil => hlength (by rw [hnil]; rfl), fun index hindex =>
    (hat index hindex).2 ?_⟩
  · rw [Word.value, valueAll_eq_map, Value.array.injEq]
    apply List.ext_getElem
    · simp
    · intro index hleft hright
      have hindex : index < words.length := by simpa using hleft
      simpa using (hat index hindex).1
  · have hpointer := hdata (List.ne_nil_of_length_pos (Nat.zero_lt_of_lt hindex))
    omega

/-- An object that holds a word in the bytes the codec reads has the value of this word,
and no null pointers in it. -/
theorem holdsWord_value (fits : ℕ → ℕ → Prop) (memory : Memory) :
    (∀ kind metadata word address, Spells fits kind metadata word →
      HoldsWord codecTypeSize kind metadata (codecTypeSize kind metadata) word address memory →
      loadValue cBool memory kind metadata address = word.value ∧
        (address ≠ 0 → WithoutNull memory kind metadata address)) ∧
      ∀ fields words address, SpellsFields fits fields words →
        HoldsFields codecTypeSize fields words address memory →
        loadFields cBool memory fields address = valueAll words ∧
          (address ≠ 0 → FieldsWithoutNull memory fields address) := by
  simp only [WithoutNull, FieldsWithoutNull]
  refine description_induction (fun hflat word address hword hholds => ?_)
    (fun word address hword hholds => ?_) (fun _ _ hword => hword.elim)
    (fun harray helement word address hword hholds => ?_)
    (fun hstruct hparts word address hword hholds => ?_) ?_
    (fun hfirst hrest words address hwords hholds => ?_)
  · rw [spells_flat hflat] at hword
    rw [holdsWord_flat hflat, ← codecTypeSize_codecKind] at hholds
    rw [loadValue_flat hflat, everywhere_flat hflat]
    exact hholds.value hword
  · obtain ⟨words, rfl, -, -, hnone⟩ := hword
    rw [loadValue, Everywhere]
    exact (HoldsArray.value (fun _ _ hfalse => hfalse.elim) hnone hholds).imp_right fun h _ => h
  · rw [Spells, harray] at hword
    obtain ⟨words, rfl, -, -, hall⟩ := hword
    simp only [HoldsWord, harray] at hholds
    rw [loadValue, Everywhere, harray]
    exact (hholds.value helement hall).imp_right fun hinside _ => hinside
  · rw [Spells, hstruct] at hword
    obtain ⟨words, rfl, hwords⟩ := hword
    simp only [HoldsWord, hstruct] at hholds
    rw [loadValue, Everywhere, hstruct]
    exact (hparts words address hwords hholds).imp_left (congrArg Value.struct)
  · rintro _ address rfl -
    exact ⟨rfl, fun _ => trivial⟩
  · obtain ⟨word, tail, rfl, hword, htail⟩ := hwords
    obtain ⟨hloaded, hnull⟩ := hfirst word _ hword hholds.1
    obtain ⟨hvalues, hothers⟩ := hrest tail address htail hholds.2
    refine ⟨?_, fun haddress => ⟨hnull (by omega), hothers haddress⟩⟩
    rw [loadFields, valueAll, hloaded, hvalues]

end Value

/-! ## Accepted bytes and encoded bytes -/

/-- Encoding the object appends exactly the bytes. -/
def EncodesAs (memory : Memory) (kind : FacetType) (metadata : FacetTypeMeta) (address : ℕ)
    (codec : FacetRpcCodec) (bytes : List UInt8) : Prop :=
  ∃ result, encodeValue memory kind metadata address codec = .ok result ∧
    result.data = codec.data ++ bytes

theorem Storable.counted (count size : ℕ) (hstorable : Storable count size) :
    Counted count size :=
  hstorable.1

/-- An object is encoded as a word exactly if the word is normal, the encoder sees its
value in the object and no null pointers, and the buffer can hold the bytes. -/
theorem encodesAs_iff {memory : Memory} {kind : FacetType} {address : ℕ}
    {codec : FacetRpcCodec} {word : Word} (hword : Spells Counted kind metadata word)
    (hsized : codec.Sized) :
    EncodesAs memory kind metadata address codec word.bytes ↔
      word.Normal ∧ loadValue intBool memory kind metadata address = word.value ∧
        WithoutNull memory kind metadata address ∧
        codec.data.length + word.bytes.length ≤ 2 ^ 63 := by
  have happends := (encodeValue_appends memory).1 kind metadata address
  rw [← Value.bytes_word] at happends
  constructor
  · rintro ⟨result, hok, hdata⟩
    obtain ⟨hseen, hnull⟩ := (encodeValue_fits memory).1 kind metadata address codec result hok
    have hbytes : (loadValue intBool memory kind metadata address).word.bytes = word.bytes :=
      List.append_cancel_left (((happends hseen hnull codec).written result hok).symm.trans hdata)
    have hsame : (loadValue intBool memory kind metadata address).word = word :=
      (unambiguous_spells Counted).1 kind metadata _ _ [] [] hseen hword
        (congrArg (fun bytes => bytes ++ []) hbytes)
    have hread : loadValue intBool memory kind metadata address = word.value := by
      rw [← hsame, Value.value_word]
    refine ⟨?_, hread, hnull, ?_⟩
    · rw [Word.normal_iff, ← hread, hsame]
    · rw [← List.length_append, ← hdata]
      exact ((happends hseen hnull codec).sized hsized result hok).le
  · rintro ⟨hnormal, hread, hnull, hroom⟩
    rw [hread, word.normal_iff.mp hnormal] at happends
    obtain ⟨result, hok⟩ := (happends hword hnull codec).succeeds hroom
    exact ⟨result, hok, (happends hword hnull codec).written result hok⟩

/-- A `bool` followed by a byte. -/
def flagAndByte : IdlType :=
  .struct 2 (.cons 0 .bool (.cons 1 (.int .u8) .nil))

/-- An enum over a 64-bit type, four bytes in C, and a word behind it. -/
def wideAndWord : IdlType :=
  .struct 8 (.cons 0 (.enum .u64 false) (.cons 4 (.int .u32) .nil))

def noObject : Heap :=
  ⟨fun _ => 0, [⟨16, 8⟩]⟩

end FacetOS.Rpc
