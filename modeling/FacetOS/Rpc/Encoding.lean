import FacetOS.Rpc.Described

/-!
# What the encoder appends

For every description: an object without null pointers, whose value is spelled in the
language of its description, is encoded as the word of the value that the encoder sees.
It fails only if the buffer would have to grow beyond `2 ^ 63` bytes.  The value it sees
is the value that is there exactly if the false `bool`s are padded.
-/

namespace FacetOS.Rpc

open LittleEndian ByteMemory
open Passes (bind_eq_ok ite_error_eq_ok foldlM_step)

variable {address elementSize : ℕ}
  {encodeElement : ℕ → FacetRpcCodec → Except FacetError FacetRpcCodec}

/-! ## Bytes of scalars -/

section Scalars

variable {codec result : FacetRpcCodec}

theorem codecAppend_data {bytes : List UInt8} (hok : codecAppend codec bytes = .ok result) :
    result.data = codec.data ++ bytes := by
  obtain ⟨-, hok⟩ := ite_error_eq_ok.mp hok
  split at hok
  · split at hok
    · cases hok
    · cases hok
      rfl
  · cases hok
    rfl

theorem leBytes_loadNat (memory : Memory) (address size : ℕ) :
    leBytes size (loadNat memory address size) = load memory address size := by
  have hbytes := leBytes_leValue (load memory address size)
  rwa [length_load] at hbytes

/-- Sign extension does not change the bytes of the number itself. -/
theorem leBytes_signExtend {width value : ℕ} (hdvd : 256 ^ width ∣ 2 ^ 64 - 2 ^ (8 * width)) :
    leBytes width (signExtend width value) = leBytes width value := by
  unfold signExtend
  split
  · rfl
  · obtain ⟨factor, hfactor⟩ := hdvd
    rw [hfactor, ← leBytes_mod, Nat.add_mul_mod_self_left, leBytes_mod]

/-- The encoder writes an integer as it lies in memory. -/
theorem scalarWord_int (memory : Memory) (address : ℕ) (kind : IntKind) :
    ∃ word, scalarWord memory address kind.facetType = some word ∧
      leBytes kind.width word = load memory address kind.width := by
  have hsigned (width : ℕ) (hdvd : 256 ^ width ∣ 2 ^ 64 - 2 ^ (8 * width)) :
      leBytes width (signExtend width (loadNat memory address width)) =
        load memory address width := by
    rw [leBytes_signExtend hdvd, leBytes_loadNat]
  cases kind
  case i8 => exact ⟨_, rfl, hsigned 1 (by decide)⟩
  case i16 => exact ⟨_, rfl, hsigned 2 (by decide)⟩
  case i32 => exact ⟨_, rfl, hsigned 4 (by decide)⟩
  all_goals exact ⟨_, rfl, leBytes_loadNat memory address _⟩

theorem encodeFlat_facetType (kind : IntKind) (size address : ℕ) :
    encodeFlat memory kind.facetType size address codec =
      match scalarWord memory address kind.facetType with
      | some value => if size = 0 then .error .notSupported else codecWriteUint codec value size
      | none => .error .notSupported := by
  cases kind <;> rfl

theorem wire_intBool (memory : Memory) (address : ℕ) :
    (Value.bool (intBool memory address)).wire =
      leBytes 1 (if loadNat memory address 4 ≠ 0 then 1 else 0) := by
  rw [Value.wire, intBool]
  by_cases hzero : loadNat memory address 4 = 0 <;> simp [hzero, leBytes]

end Scalars

/-! ## Reading every `bool` through an `int` -/

section Reading

variable {memory : Memory}

theorem loadFlat_intBool_iff (kind : FacetType) (address : ℕ) :
    loadFlat intBool memory kind address = loadFlat cBool memory kind address ↔
      (kind = .bool → cBool memory address = false →
        ∀ index < 3, memory (address + 1 + index) = 0) := by
  by_cases hkind : kind = .bool
  · subst hkind
    rw [loadFlat, loadFlat, Value.bool.injEq, intBool_eq_cBool_iff]
    simp
  · cases kind <;> simp [loadFlat] at hkind ⊢

theorem loadArray_congr_iff {left right : ℕ → Value} {element : ℕ → Prop}
    (helement : ∀ address, left address = right address ↔ element address) (address : ℕ) :
    loadArray memory elementSize left address = loadArray memory elementSize right address ↔
      EverywhereArray memory (fun _ => True) elementSize element address := by
  rw [loadArray, loadArray, Value.array.injEq, List.map_inj_left, EverywhereArray, true_and]
  constructor
  · intro hall index hindex
    exact (helement _).mp (hall index (List.mem_range.mpr hindex))
  · intro hall index hindex
    exact (helement _).mpr (hall index (List.mem_range.mp hindex))

/-- Reading every `bool` through an `int` gives the value itself exactly when all
false ones are padded. -/
theorem loadValue_intBool_iff (memory : Memory) :
    (∀ kind metadata address, loadValue intBool memory kind metadata address =
        loadValue cBool memory kind metadata address ↔
      FalseBoolsPadded memory kind metadata address) ∧
      ∀ fields address, loadFields intBool memory fields address =
          loadFields cBool memory fields address ↔
        EverywhereFields memory (fun kind address => kind = .bool →
          cBool memory address = false → ∀ index < 3, memory (address + 1 + index) = 0)
          (fun _ => True) fields address := by
  simp only [FalseBoolsPadded]
  refine description_induction (fun hflat address => ?_) ?_ ?_ (fun harray helement address => ?_)
    (fun hstruct hfields address => ?_) ?_ (fun hfirst hrest address => ?_)
  · rw [loadValue_flat hflat, loadValue_flat hflat, everywhere_flat hflat]
    exact loadFlat_intBool_iff _ address
  · rw [loadValue, loadValue, Everywhere]
    exact loadArray_congr_iff (fun _ => by simp)
  · simp [loadValue, Everywhere]
  · rw [loadValue, loadValue, Everywhere, harray]
    exact loadArray_congr_iff helement address
  · simp only [loadValue, Everywhere, hstruct, Value.struct.injEq]
    exact hfields address
  · simp [loadFields, EverywhereFields]
  · rw [loadFields, loadFields, List.cons.injEq, EverywhereFields, hfirst, hrest]

end Reading

/-! ## Room in the buffer -/

/-- Doubling reaches every size up to `2 ^ 63`. -/
theorem growCapacity_ok {needed : ℕ} (hneeded : needed ≤ 2 ^ 63) (fuel capacity : ℕ)
    (hreach : needed ≤ capacity * 2 ^ fuel) :
    ∃ grown, growCapacity needed (fuel + 1) capacity = some grown := by
  induction fuel generalizing capacity with
  | zero =>
    refine ⟨capacity, ?_⟩
    rw [growCapacity, if_neg (by omega)]
  | succ fuel ih =>
    rw [growCapacity]
    by_cases hsmall : capacity < needed
    · have hhalf : ¬ capacity > sizeMax / 2 := by
        have hmax : sizeMax = 2 ^ 64 - 1 := rfl
        omega
      rw [if_pos hsmall, if_neg hhalf]
      apply ih
      rwa [Nat.mul_assoc, ← Nat.pow_succ']
    · exact ⟨capacity, if_neg hsmall⟩

/-- Doubling a power of two stops at `2 ^ 63`. -/
theorem growCapacity_dvd {needed grown fuel capacity : ℕ} (hpower : capacity ∣ 2 ^ 63)
    (hgrown : growCapacity needed fuel capacity = some grown) :
    needed ≤ grown ∧ grown ∣ 2 ^ 63 := by
  induction fuel generalizing capacity with
  | zero => cases hgrown
  | succ fuel ih =>
    rw [growCapacity] at hgrown
    split at hgrown
    · split at hgrown
      · cases hgrown
      rename_i hhalf
      refine ih ?_ hgrown
      obtain ⟨exponent, hle, rfl⟩ := (Nat.dvd_prime_pow Nat.prime_two).mp hpower
      have hlt : exponent ≠ 63 := by
        rintro rfl
        exact hhalf (by decide)
      rw [← Nat.pow_succ]
      exact Nat.pow_dvd_pow 2 (by omega)
    · rename_i hsmall
      cases hgrown
      exact ⟨Nat.le_of_not_lt hsmall, hpower⟩

/-- The buffer is as large as `codec_write` makes it. -/
structure FacetRpcCodec.Sized (codec : FacetRpcCodec) : Prop where
  length_le : codec.data.length ≤ codec.capacity
  capacity : codec.capacity = 0 ∨ codec.capacity ∣ 2 ^ 63

theorem FacetRpcCodec.Sized.le {codec : FacetRpcCodec} (hsized : codec.Sized) :
    codec.data.length ≤ 2 ^ 63 := by
  apply hsized.length_le.trans
  rcases hsized.capacity with hzero | hpower
  · rw [hzero]
    exact Nat.zero_le _
  · exact Nat.le_of_dvd (by decide) hpower

theorem codecAppend_ok {codec : FacetRpcCodec} {bytes : List UInt8}
    (hroom : codec.data.length + bytes.length ≤ 2 ^ 63) :
    ∃ after, codecAppend codec bytes = .ok after := by
  have hmax : sizeMax = 2 ^ 64 - 1 := rfl
  rw [codecAppend, if_neg (by omega)]
  by_cases hgrow : codec.data.length + bytes.length > codec.capacity
  · obtain ⟨grown, hgrown⟩ := growCapacity_ok hroom 64
      (if codec.capacity = 0 then 256 else codec.capacity) (by split <;> omega)
    rw [if_pos hgrow, hgrown]
    exact ⟨_, rfl⟩
  · rw [if_neg hgrow]
    exact ⟨_, rfl⟩

theorem FacetRpcCodec.Sized.append {codec after : FacetRpcCodec} {bytes : List UInt8}
    (hsized : codec.Sized) (hok : codecAppend codec bytes = .ok after) : after.Sized := by
  unfold codecAppend at hok
  dsimp only at hok
  split at hok
  · cases hok
  split at hok
  · split at hok
    · cases hok
    rename_i grown hgrown
    cases hok
    have hpower : (if codec.capacity = 0 then 256 else codec.capacity) ∣ 2 ^ 63 := by
      split
      · decide
      · rename_i hnonzero
        exact hsized.capacity.resolve_left hnonzero
    obtain ⟨hle, hdvd⟩ := growCapacity_dvd hpower hgrown
    exact ⟨by rwa [List.length_append], .inr hdvd⟩
  · rename_i hfits
    cases hok
    refine ⟨?_, hsized.capacity⟩
    rw [List.length_append]
    exact Nat.le_of_not_lt hfits

/-! ## What the encoder appends -/

/-- The step appends the bytes, and fails only if they would not fit into `2 ^ 63`
bytes. -/
structure Appends (result : Except FacetError FacetRpcCodec) (codec : FacetRpcCodec)
    (bytes : List UInt8) : Prop where
  succeeds : codec.data.length + bytes.length ≤ 2 ^ 63 → ∃ after, result = .ok after
  written : ∀ after, result = .ok after → after.data = codec.data ++ bytes
  sized : codec.Sized → ∀ after, result = .ok after → after.Sized

section Encoding

variable {memory : Memory} {codec : FacetRpcCodec}

theorem appends_nothing (codec : FacetRpcCodec) : Appends (.ok codec) codec [] where
  succeeds _ := ⟨codec, rfl⟩
  written after hok := by
    cases hok
    exact (List.append_nil _).symm
  sized hsized after hok := by
    cases hok
    exact hsized

theorem Appends.bind {result : Except FacetError FacetRpcCodec}
    {next : FacetRpcCodec → Except FacetError FacetRpcCodec} {left right : List UInt8}
    (hfirst : Appends result codec left) (hnext : ∀ after, Appends (next after) after right) :
    Appends (result >>= next) codec (left ++ right) where
  succeeds hroom := by
    rw [List.length_append] at hroom
    obtain ⟨after, hok⟩ := hfirst.succeeds (by omega)
    have hdata := congrArg List.length (hfirst.written after hok)
    rw [List.length_append] at hdata
    rw [hok]
    exact (hnext after).succeeds (by omega)
  written last hok := by
    obtain ⟨after, hresult, hok⟩ := bind_eq_ok.mp hok
    rw [(hnext after).written last hok, hfirst.written after hresult, List.append_assoc]
  sized hsized last hok := by
    obtain ⟨after, hresult, hok⟩ := bind_eq_ok.mp hok
    exact (hnext after).sized (hfirst.sized hsized after hresult) last hok

theorem appends_codecAppend (bytes : List UInt8) :
    Appends (codecAppend codec bytes) codec bytes where
  succeeds := codecAppend_ok
  written _ := codecAppend_data
  sized hsized _ := hsized.append

theorem appends_codecWrite {data size : ℕ} (hnull : size ≠ 0 → data ≠ 0) :
    Appends (codecWrite memory codec data size) codec (load memory data size) := by
  rw [codecWrite, if_neg fun hboth => hnull hboth.1 hboth.2]
  exact appends_codecAppend _

theorem appends_codecWriteUint (value : ℕ) {size : ℕ} (hsize : size ≤ 8) :
    Appends (codecWriteUint codec value size) codec (leBytes size value) := by
  rw [codecWriteUint, if_neg (by omega)]
  exact appends_codecAppend _

theorem appends_int (kind : IntKind) (address : ℕ) :
    Appends (encodeFlat memory kind.facetType kind.width address codec) codec
      (load memory address kind.width) := by
  obtain ⟨word, hword, hbytes⟩ := scalarWord_int memory address kind
  have hwidth : kind.width ≠ 0 ∧ kind.width ≤ 8 := by
    cases kind <;> decide
  rw [encodeFlat_facetType, hword]
  dsimp only
  rw [if_neg hwidth.1, ← hbytes]
  exact appends_codecWriteUint word hwidth.2

theorem appends_string {size : ℕ} (hlength : loadNat memory (address + 8) 8 < 2 ^ 32)
    (hnull : loadNat memory (address + 8) 8 ≠ 0 → loadNat memory address 8 ≠ 0) :
    Appends (encodeFlat memory .string size address codec) codec
      (loadFlat intBool memory .string address).wire := by
  rw [loadFlat, Value.wire, length_load]
  simp only [encodeFlat]
  rw [if_neg (by omega)]
  exact (appends_codecWriteUint _ (show 4 ≤ 8 by decide)).bind fun _ => appends_codecWrite hnull

theorem appends_flat {kind : FacetType} {metadata : FacetTypeMeta}
    (hword : FlatWord kind (loadFlat intBool memory kind address).word)
    (hnull : NullFree memory kind address) :
    Appends (encodeFlat memory kind (codecTypeSize kind metadata) address codec) codec
      (loadFlat intBool memory kind address).wire := by
  rcases flatWord_cases hword with ⟨rfl, bytes, hlength, hbytes⟩ | ⟨rfl, -⟩ | ⟨rfl, -⟩ |
    ⟨int, rfl, -⟩
  · rw [loadFlat, Value.word, Word.string.injEq] at hbytes
    rw [← hbytes, length_load] at hlength
    exact appends_string hlength (hnull.2 rfl)
  · have hsize : codecTypeSize .bool metadata = 1 := by
      cases metadata <;> rfl
    rw [hsize, loadFlat, wire_intBool]
    exact appends_codecWriteUint _ (show 1 ≤ 8 by decide)
  · exact appends_codecWrite fun _ => hnull.1 rfl
  · rw [codecTypeSize_facetType, loadFlat_facetType]
    exact appends_int int address

theorem appends_elements {value : ℕ → Value} {indices : List ℕ}
    (hstep : ∀ index ∈ indices, ∀ before,
      Appends (encodeElement index before) before (value index).wire) :
    Appends (indices.foldlM (fun codec index => encodeElement index codec) codec) codec
      (wireAll (indices.map value)) := by
  induction indices generalizing codec with
  | nil => exact appends_nothing codec
  | cons index rest ih =>
    rw [List.foldlM_cons, List.map_cons, wireAll]
    apply (hstep index List.mem_cons_self codec).bind
    intro after
    exact ih fun later hlater => hstep later (List.mem_cons_of_mem _ hlater)

theorem encodeArray_eq (hcount : loadNat memory (address + 8) 8 < 2 ^ 32)
    (hsize : loadNat memory (address + 8) 8 ≠ 0 → elementSize ≠ 0)
    (hnull : loadNat memory (address + 8) 8 ≠ 0 → loadNat memory address 8 ≠ 0) :
    encodeArray memory elementSize encodeElement address codec =
      codecWriteUint codec (loadNat memory (address + 8) 8) 4 >>=
        (List.range (loadNat memory (address + 8) 8)).foldlM (fun codec index =>
          encodeElement (loadNat memory address 8 + index * elementSize) codec) := by
  rw [encodeArray]
  generalize loadNat memory (address + 8) 8 = count at *
  generalize loadNat memory address 8 = data at *
  have hsized : ¬ (elementSize = 0 ∧ count ≠ 0) := fun hboth => hsize hboth.2 hboth.1
  have hpointer : ¬ (count ≠ 0 ∧ data = 0) := fun hboth => hnull hboth.1 hboth.2
  rw [if_neg (by omega)]
  cases codecWriteUint codec count 4 <;>
    simp only [if_neg hsized, if_neg hpointer] <;> rfl

theorem appends_array {language : Word → Prop} {value : ℕ → Value} {array element : ℕ → Prop}
    (hstep : ∀ address, language (value address).word → element address → ∀ codec,
      Appends (encodeElement address codec) codec (value address).wire)
    (hword : ArrayWord Counted elementSize language
      (loadArray memory elementSize value address).word)
    (hnull : array address → loadNat memory (address + 8) 8 ≠ 0 → loadNat memory address 8 ≠ 0)
    (hinside : EverywhereArray memory array elementSize element address) :
    Appends (encodeArray memory elementSize encodeElement address codec) codec
      (loadArray memory elementSize value address).wire := by
  obtain ⟨words, hwords, hcount, hsize, hall⟩ := hword
  rw [loadArray, Value.word, Word.array.injEq, wordAll_eq_map, List.map_map] at hwords
  have hlength : words.length = loadNat memory (address + 8) 8 := by
    rw [← hwords]
    simp
  rw [hlength] at hcount hsize
  rw [encodeArray_eq hcount (fun hnonzero hzero => hnonzero (hsize hzero)) (hnull hinside.1),
    loadArray, Value.wire, List.length_map, List.length_range]
  apply (appends_codecWriteUint _ (show 4 ≤ 8 by decide)).bind
  intro counted
  apply appends_elements
  intro index hindex before
  apply hstep _ _ (hinside.2 index (List.mem_range.mp hindex))
  apply hall
  rw [← hwords]
  exact List.mem_map_of_mem hindex

theorem encodeValue_flatMeta {kind : FacetType} {metadata : FacetTypeMeta}
    (hflat : Flat kind metadata) :
    encodeValue memory kind metadata =
      encodeFlat memory (codecKind kind metadata)
        (codecTypeSize (codecKind kind metadata) metadata) := by
  obtain ⟨harray, hstruct⟩ := hflat
  funext input codec
  cases metadata with
  | null => rw [encodeValue, codecKind] <;> assumption
  | mk metaKind underlying size elementType elementKind fields =>
    rw [encodeValue]
    split <;> first | contradiction | rfl

theorem encodeFields_cons {typeKind : FacetType} {type : FacetTypeMeta} {offset : ℕ}
    {rest : FacetStructFields} :
    encodeFields memory (.cons typeKind type offset rest) address codec =
      encodeValue memory typeKind type (address + offset) codec >>=
        encodeFields memory rest address := by
  rw [encodeFields]
  cases encodeValue memory typeKind type (address + offset) codec <;> rfl

end Encoding

/-- An object whose value is spelled in the language of its description, with no null
pointer in it, is encoded as this spelling. -/
theorem encodeValue_appends (memory : Memory) :
    (∀ kind metadata address,
      Spells Counted kind metadata (loadValue intBool memory kind metadata address).word →
      WithoutNull memory kind metadata address → ∀ codec,
      Appends (encodeValue memory kind metadata address codec) codec
        (loadValue intBool memory kind metadata address).wire) ∧
      ∀ fields address,
        SpellsFields Counted fields (wordAll (loadFields intBool memory fields address)) →
        FieldsWithoutNull memory fields address → ∀ codec,
        Appends (encodeFields memory fields address codec) codec
          (wireAll (loadFields intBool memory fields address)) := by
  simp only [WithoutNull, FieldsWithoutNull]
  refine description_induction (fun hflat address hword hnull codec => ?_)
    (fun address hword hnull codec => ?_) (fun _ hword => hword.elim)
    (fun harray helement address hword hnull codec => ?_)
    (fun hstruct hparts address hword hnull codec => ?_) (fun _ _ _ => appends_nothing)
    (fun hfirst hrest address hwords hnull codec => ?_)
  · rw [spells_flat hflat, loadValue_flat hflat] at hword
    rw [everywhere_flat hflat] at hnull
    rw [loadValue_flat hflat, encodeValue_flatMeta hflat]
    exact appends_flat hword hnull
  · rw [loadValue] at hword ⊢
    rw [Everywhere] at hnull
    rw [encodeValue]
    exact appends_array (fun _ hnone => hnone.elim) hword id hnull
  · rw [Spells, loadValue, harray] at hword
    rw [Everywhere, harray] at hnull
    rw [loadValue, encodeValue, harray]
    exact appends_array helement hword id hnull
  · rw [Spells, loadValue, hstruct] at hword
    rw [Everywhere, hstruct] at hnull
    rw [loadValue, encodeValue, hstruct]
    obtain ⟨words, hwords, hfields⟩ := hword
    obtain rfl := Word.struct.inj hwords
    exact hparts address hfields hnull codec
  · rw [loadFields, wordAll] at hwords
    obtain ⟨word, tail, hcons, hword, htail⟩ := hwords
    obtain ⟨rfl, rfl⟩ := List.cons.inj hcons
    rw [encodeFields_cons, loadFields, wireAll]
    exact (hfirst _ hword hnull.1 codec).bind (hrest address htail hnull.2)

/-! ## What a successful encoder has seen -/

section Seen

variable {memory : Memory} {codec result : FacetRpcCodec}

theorem encodeFlat_fits {kind : FacetType} {size : ℕ}
    (hok : encodeFlat memory kind size address codec = .ok result) :
    FlatWord kind (loadFlat intBool memory kind address).word ∧ NullFree memory kind address := by
  cases kind with
  | string =>
    simp only [encodeFlat, ite_error_eq_ok, bind_eq_ok] at hok
    obtain ⟨hlength, counted, -, hok⟩ := hok
    have hpointer := (ite_error_eq_ok.mp hok).1
    refine ⟨⟨rfl, ?_⟩, by rintro ⟨⟩, fun _ hne hnull => hpointer ⟨hne, hnull⟩⟩
    rw [length_load]
    omega
  | uuid =>
    have hpointer := (ite_error_eq_ok.mp hok).1
    exact ⟨congrArg some length_load.symm, fun _ hnull => hpointer ⟨by decide, hnull⟩,
      by rintro ⟨⟩⟩
  | bool => exact ⟨rfl, by rintro ⟨⟩, by rintro ⟨⟩⟩
  | u8 | u16 | u32 | u64 | i8 | i16 | i32 | i64 =>
    exact ⟨congrArg some length_load.symm, by rintro ⟨⟩, by rintro ⟨⟩⟩
  | handle | bytes | localPtr | enum | struct | array => cases hok

theorem encodeArray_fits
    (hok : encodeArray memory elementSize encodeElement address codec = .ok result) :
    loadNat memory (address + 8) 8 < 2 ^ 32 ∧
      Counted (loadNat memory (address + 8) 8) elementSize ∧ ArrayNullFree memory address ∧
      ∀ index < loadNat memory (address + 8) 8, ∃ before after,
        encodeElement (loadNat memory address 8 + index * elementSize) before = .ok after := by
  unfold encodeArray at hok
  obtain ⟨hcount, hok⟩ := ite_error_eq_ok.mp hok
  cases hwrite : codecWriteUint codec (loadNat memory (address + 8) 8) 4 with
  | error failure => simp [hwrite, ite_error_eq_ok] at hok
  | ok counted =>
    simp only [hwrite, ite_error_eq_ok] at hok
    obtain ⟨hsize, hdata, hok⟩ := hok
    refine ⟨by omega, fun hzero => not_not.mp fun hne => hsize ⟨hzero, hne⟩,
      fun hne hnull => hdata ⟨hne, hnull⟩, fun index hindex => ?_⟩
    exact foldlM_step hok (List.mem_range.mpr hindex)

theorem arrayWord_of_fits {language : Word → Prop} {value : ℕ → Value} {element : ℕ → Prop}
    (hstep : ∀ address before after, encodeElement address before = .ok after →
      language (value address).word ∧ element address)
    (hok : encodeArray memory elementSize encodeElement address codec = .ok result) :
    ArrayWord Counted elementSize language (loadArray memory elementSize value address).word ∧
      EverywhereArray memory (ArrayNullFree memory) elementSize element address := by
  obtain ⟨hcount, hsize, hnull, helements⟩ := encodeArray_fits hok
  have hall (index : ℕ) (hindex : index < loadNat memory (address + 8) 8) :
      language (value (loadNat memory address 8 + index * elementSize)).word ∧
        element (loadNat memory address 8 + index * elementSize) := by
    obtain ⟨before, after, hencode⟩ := helements index hindex
    exact hstep _ before after hencode
  refine ⟨⟨_, rfl, by simpa using hcount, by simpa using hsize, fun part hpart => ?_⟩, hnull,
    fun index hindex => (hall index hindex).2⟩
  rw [wordAll_eq_map, List.map_map] at hpart
  obtain ⟨index, hindex, rfl⟩ := List.mem_map.mp hpart
  exact (hall index (List.mem_range.mp hindex)).1

end Seen

/-- What the encoder accepts is spelled in the language of its description and free of
null pointers. -/
theorem encodeValue_fits (memory : Memory) :
    (∀ kind metadata address codec result,
      encodeValue memory kind metadata address codec = .ok result →
      Spells Counted kind metadata (loadValue intBool memory kind metadata address).word ∧
        WithoutNull memory kind metadata address) ∧
      ∀ fields address codec result, encodeFields memory fields address codec = .ok result →
        SpellsFields Counted fields (wordAll (loadFields intBool memory fields address)) ∧
          FieldsWithoutNull memory fields address := by
  simp only [WithoutNull, FieldsWithoutNull]
  refine description_induction (fun hflat address codec result hok => ?_)
    (fun address codec result hok => ?_) (fun _ _ _ hok => ?_)
    (fun harray helement address codec result hok => ?_)
    (fun hstruct hparts address codec result hok => ?_) (fun _ _ _ _ => ⟨rfl, trivial⟩)
    (fun hfirst hrest address codec result hok => ?_)
  · rw [encodeValue_flatMeta hflat] at hok
    rw [spells_flat hflat, loadValue_flat hflat, everywhere_flat hflat]
    exact encodeFlat_fits hok
  · rw [encodeValue] at hok
    rw [Spells, loadValue, Everywhere]
    exact arrayWord_of_fits (by rintro _ _ _ ⟨⟩) hok
  · cases hok
  · rw [encodeValue, harray] at hok
    rw [Spells, loadValue, Everywhere, harray]
    exact arrayWord_of_fits helement hok
  · rw [encodeValue, hstruct] at hok
    rw [Spells, loadValue, Everywhere, hstruct]
    obtain ⟨hwords, hnull⟩ := hparts address codec result hok
    exact ⟨⟨_, rfl, hwords⟩, hnull⟩
  · rw [encodeFields_cons, bind_eq_ok] at hok
    obtain ⟨middle, hhead, hok⟩ := hok
    obtain ⟨hword, hnull⟩ := hfirst _ codec middle hhead
    obtain ⟨hwords, hnulls⟩ := hrest address middle result hok
    exact ⟨⟨_, _, rfl, hword, hwords⟩, hnull, hnulls⟩

/-- Objects whose words have no bytes are encoded by nothing. -/
theorem encodeValue_of_bytes_nil {fits : ℕ → ℕ → Prop} (memory : Memory) :
    (∀ kind metadata word address codec, Spells fits kind metadata word → word.bytes = [] →
      encodeValue memory kind metadata address codec = .ok codec) ∧
      ∀ fields words address codec, SpellsFields fits fields words → bytesAll words = [] →
        encodeFields memory fields address codec = .ok codec := by
  have hheader {count : ℕ} {rest : List UInt8} (hnil : leBytes 4 count ++ rest = []) : False := by
    have hlength := congrArg List.length hnil
    rw [List.length_append, length_leBytes, List.length_nil] at hlength
    omega
  refine description_induction (fun hflat word address codec hword hnil => ?_)
    (fun word address codec hword hnil => ?_) (fun _ _ _ hword => hword.elim)
    (fun harray _ word address codec hword hnil => ?_)
    (fun hstruct hparts word address codec hword hnil => ?_) (fun _ _ _ _ _ => rfl)
    (fun hfirst hrest words address codec hwords hnil => ?_)
  · rw [spells_flat hflat] at hword
    rcases flatWord_cases hword with ⟨-, bytes, -, rfl⟩ | ⟨-, byte, rfl⟩ |
      ⟨-, bytes, hlength, rfl⟩ | ⟨int, -, bytes, hlength, rfl⟩
    · exact (hheader hnil).elim
    · cases hnil
    · cases hnil
      cases hlength
    · cases hnil
      cases int <;> cases hlength
  · obtain ⟨words, rfl, -⟩ := hword
    exact (hheader hnil).elim
  · rw [Spells, harray] at hword
    obtain ⟨words, rfl, -⟩ := hword
    exact (hheader hnil).elim
  · rw [Spells, hstruct] at hword
    obtain ⟨words, rfl, hwords⟩ := hword
    rw [encodeValue, hstruct]
    exact hparts words address codec hwords hnil
  · obtain ⟨word, tail, rfl, hword, htail⟩ := hwords
    obtain ⟨hhead, hlast⟩ := List.append_eq_nil_iff.mp hnil
    rw [encodeFields_cons, hfirst word _ codec hword hhead]
    exact hrest tail address codec htail hlast

end FacetOS.Rpc
