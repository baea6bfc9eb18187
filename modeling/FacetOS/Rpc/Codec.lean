import FacetOS.Core.Memory
import FacetOS.Rpc.TypeMeta

/-!
# The payload codec

`codec_value` walks a value in memory along its metadata.  It is one C function
with a direction flag; the two directions are `encodeValue` and `decodeValue`
here.  Decoding keeps the heap on every path, also on the failing ones.

The encoder reads a `bool` through an `int` pointer, and both directions use the
width of the underlying type for an enum, as fields and as array elements.
-/

namespace FacetOS.Rpc

open LittleEndian ByteMemory

/-- The kind that the codec works with: enums are replaced by their underlying
type. -/
def codecKind (kind : FacetType) : FacetTypeMeta → FacetType
  | .null => kind
  | .mk _ underlying _ _ _ _ => if kind = .enum then underlying else kind

def codecTypeSize (kind : FacetType) (metadata : FacetTypeMeta) : ℕ :=
  match codecKind kind metadata, metadata with
  | .u8, _ | .i8, _ | .bool, _ => 1
  | .u16, _ | .i16, _ => 2
  | .u32, _ | .i32, _ => 4
  | .u64, _ | .i64, _ => 8
  | .uuid, _ | .string, _ | .array, _ => 16
  | .struct, .mk _ _ size _ _ _ => size
  | _, _ => 0

/-- The kind of the elements of an array: the element metadata wins over the
recorded element kind. -/
def elementKindOf (elementType : FacetTypeMeta) (elementKind : FacetType) : FacetType :=
  match elementType with
  | .null => elementKind
  | .mk kind _ _ _ _ _ => kind

/-! ## Encoding -/

/-- The write side of `FacetRpcCodec`: the first `size` bytes of the buffer and
its capacity. -/
structure FacetRpcCodec where
  data : List UInt8
  capacity : ℕ

/-- The doubling loop of `codec_write`; 65 doublings exceed every `size_t`. -/
def growCapacity (needed : ℕ) : ℕ → ℕ → Option ℕ
  | 0, _ => none
  | fuel + 1, capacity =>
    if capacity < needed then
      if capacity > sizeMax / 2 then none else growCapacity needed fuel (capacity * 2)
    else some capacity

/-- `codec_write` of bytes that are at hand; the buffer can always be enlarged. -/
def codecAppend (codec : FacetRpcCodec) (bytes : List UInt8) :
    Except FacetError FacetRpcCodec :=
  let size := codec.data.length + bytes.length
  if bytes.length > sizeMax - codec.data.length then .error .bufferTooSmall
  else if size > codec.capacity then
    match growCapacity size 65 (if codec.capacity = 0 then 256 else codec.capacity) with
    | none => .error .bufferTooSmall
    | some capacity => .ok ⟨codec.data ++ bytes, capacity⟩
  else .ok ⟨codec.data ++ bytes, codec.capacity⟩

/-- `codec_write` from an address. -/
def codecWrite (memory : Memory) (codec : FacetRpcCodec) (data size : ℕ) :
    Except FacetError FacetRpcCodec :=
  if size ≠ 0 ∧ data = 0 then .error .invalidArgument
  else codecAppend codec (load memory data size)

def codecWriteUint (codec : FacetRpcCodec) (value size : ℕ) :
    Except FacetError FacetRpcCodec :=
  if size > 8 then .error .invalidArgument else codecAppend codec (leBytes size value)

/-- A signed number of `width` bytes as a 64-bit word. -/
def signExtend (width value : ℕ) : ℕ :=
  if value < 2 ^ (8 * width - 1) then value else value + (2 ^ 64 - 2 ^ (8 * width))

/-- The word that the encoder reads for a scalar kind. -/
def scalarWord (memory : Memory) (input : ℕ) : FacetType → Option ℕ
  | .u8 => some (loadNat memory input 1)
  | .u16 => some (loadNat memory input 2)
  | .u32 => some (loadNat memory input 4)
  | .u64 => some (loadNat memory input 8)
  | .i8 => some (signExtend 1 (loadNat memory input 1))
  | .i16 => some (signExtend 2 (loadNat memory input 2))
  | .i32 => some (signExtend 4 (loadNat memory input 4))
  | .i64 => some (loadNat memory input 8)
  -- `*(const int *)input != 0`
  | .bool => some (if loadNat memory input 4 ≠ 0 then 1 else 0)
  | _ => none

/-- The branches of `codec_value` that do not look into the metadata. -/
def encodeFlat (memory : Memory) (kind : FacetType) (size input : ℕ)
    (codec : FacetRpcCodec) : Except FacetError FacetRpcCodec :=
  match kind with
  | .string =>
    let length := loadNat memory (input + 8) 8
    if length > 2 ^ 32 - 1 then .error .invalidArgument
    else do
      let codec ← codecWriteUint codec length 4
      codecWrite memory codec (loadNat memory input 8) length
  | .handle | .localPtr | .bytes => .error .notSupported
  | .uuid => codecWrite memory codec input 16
  | _ =>
    match scalarWord memory input kind with
    | some value => if size = 0 then .error .notSupported else codecWriteUint codec value size
    | none => .error .notSupported

/-- The array branch of `codec_value` over an encoder for one element. -/
def encodeArray (memory : Memory) (elementSize : ℕ)
    (encodeElement : ℕ → FacetRpcCodec → Except FacetError FacetRpcCodec) (input : ℕ)
    (codec : FacetRpcCodec) : Except FacetError FacetRpcCodec :=
  let data := loadNat memory input 8
  let count := loadNat memory (input + 8) 8
  if count > 2 ^ 32 - 1 then .error .invalidArgument
  else
    match codecWriteUint codec count 4 with
    | .error failure =>
      if elementSize = 0 ∧ count ≠ 0 then .error .notSupported
      else if count ≠ 0 ∧ data = 0 then .error .invalidArgument
      else .error failure
    | .ok codec =>
      if elementSize = 0 ∧ count ≠ 0 then .error .notSupported
      else if count ≠ 0 ∧ data = 0 then .error .invalidArgument
      else
        (List.range count).foldlM
          (fun codec index => encodeElement (data + index * elementSize) codec) codec

mutual

/-- `codec_value` with `decoding == 0`. -/
def encodeValue (memory : Memory) (kind : FacetType) :
    FacetTypeMeta → ℕ → FacetRpcCodec → Except FacetError FacetRpcCodec
  | .null, input, codec =>
    match kind with
    | .array => encodeArray memory 0 (fun _ _ => .error .notSupported) input codec
    | .struct => .error .invalidArgument
    | _ => encodeFlat memory kind (codecTypeSize kind .null) input codec
  | .mk metaKind underlying size elementType elementKind fields, input, codec =>
    match codecKind kind (.mk metaKind underlying size elementType elementKind fields) with
    | .array =>
      encodeArray memory
        (codecTypeSize (elementKindOf elementType elementKind) elementType)
        (encodeValue memory (elementKindOf elementType elementKind) elementType)
        input codec
    | .struct => encodeFields memory fields input codec
    | flat =>
      encodeFlat memory flat
        (codecTypeSize flat (.mk metaKind underlying size elementType elementKind fields))
        input codec

/-- The struct branch of `codec_value` with `decoding == 0`. -/
def encodeFields (memory : Memory) :
    FacetStructFields → ℕ → FacetRpcCodec → Except FacetError FacetRpcCodec
  | .nil, _, codec => .ok codec
  | .cons typeKind type offset rest, input, codec =>
    match encodeValue memory typeKind type (input + offset) codec with
    | .error failure => .error failure
    | .ok codec => encodeFields memory rest input codec

end

/-! ## Decoding -/

/-- The state of a decoder: the heap and the read offset into the payload. -/
structure DecodeState where
  heap : Heap
  offset : ℕ

/-- The result code of a step together with the state it leaves. -/
abbrev Outcome (State : Type) := Except FacetError Unit × State

abbrev Decoded := Outcome DecodeState

/-- Continue with the next step unless this one failed. -/
def Outcome.andThen {State : Type} (result : Outcome State) (next : State → Outcome State) :
    Outcome State :=
  match result with
  | (.ok (), state) => next state
  | (.error failure, state) => (.error failure, state)

def DecodeState.store (state : DecodeState) (address : ℕ) (bytes : List UInt8) :
    DecodeState :=
  { state with
    heap := { state.heap with memory := ByteMemory.store state.heap.memory address bytes } }

def DecodeState.storeNat (state : DecodeState) (address size value : ℕ) : DecodeState :=
  state.store address (leBytes size value)

def codecRead (payload : List UInt8) (offset size : ℕ) : Except FacetError (List UInt8) :=
  if offset > payload.length ∨ size > payload.length - offset then .error .protocolError
  else .ok ((payload.drop offset).take size)

def malloc (allocator : Allocator) (size : ℕ) (state : DecodeState) :
    Option (ℕ × DecodeState) :=
  (allocator.place state.heap.live size).map fun address =>
    (address,
      { state with heap := { state.heap with live := ⟨address, size⟩ :: state.heap.live } })

def calloc (allocator : Allocator) (size : ℕ) (state : DecodeState) :
    Option (ℕ × DecodeState) :=
  (malloc allocator size state).map fun allocated =>
    (allocated.1, allocated.2.store allocated.1 (List.replicate size 0))

/-- `free`; a null pointer is ignored. -/
def free (address : ℕ) (state : DecodeState) : DecodeState :=
  if address = 0 then state
  else
    { state with
      heap := { state.heap with
        live := state.heap.live.filter fun block => block.address ≠ address } }

/-! ### Releasing values -/

def releaseString (value : ℕ) (state : DecodeState) : DecodeState :=
  ((free (loadNat state.heap.memory value 8) state).storeNat value 8 0).storeNat (value + 8) 8 0

/-- Release `count` elements one after the other. -/
def releaseElements (releaseElement : ℕ → DecodeState → DecodeState) (data elementSize : ℕ) :
    ℕ → ℕ → DecodeState → DecodeState
  | 0, _, state => state
  | count + 1, index, state =>
    releaseElements releaseElement data elementSize count (index + 1)
      (releaseElement (data + index * elementSize) state)

def releaseArray (elementKind : FacetType) (elementSize : ℕ)
    (releaseElement : ℕ → DecodeState → DecodeState) (value : ℕ) (state : DecodeState) :
    DecodeState :=
  let data := loadNat state.heap.memory value 8
  let count := loadNat state.heap.memory (value + 8) 8
  let state :=
    if data ≠ 0 ∧ elementSize ≠ 0 ∧
        (elementKind = .string ∨ elementKind = .array ∨ elementKind = .struct) then
      releaseElements releaseElement data elementSize count 0 state
    else state
  ((free (loadNat state.heap.memory value 8) state).storeNat value 8 0).storeNat (value + 8) 8 0

mutual

def codecReleaseValue (kind : FacetType) :
    FacetTypeMeta → ℕ → DecodeState → DecodeState
  | .null, value, state =>
    if value = 0 then state
    else
      match kind with
      | .string => releaseString value state
      | .array => releaseArray .bytes 0 (fun _ state => state) value state
      | _ => state
  | .mk _ _ _ elementType elementKind fields, value, state =>
    if value = 0 then state
    else
      match kind with
      | .string => releaseString value state
      | .array =>
        releaseArray elementKind (codecTypeSize elementKind elementType)
          (codecReleaseValue elementKind elementType) value state
      | .struct => releaseFields fields value state
      | _ => state

def releaseFields : FacetStructFields → ℕ → DecodeState → DecodeState
  | .nil, _, state => state
  | .cons typeKind type offset rest, value, state =>
    releaseFields rest value
      (if typeKind = .string ∨ typeKind = .array ∨ typeKind = .struct then
        codecReleaseValue typeKind type (value + offset) state
      else state)

end

/-! ### Decoding values -/

def decodeString (allocator : Allocator) (payload : List UInt8) (output : ℕ)
    (state : DecodeState) : Decoded :=
  match codecRead payload state.offset 4 with
  | .error _ => (.error .protocolError, state)
  | .ok prefixBytes =>
    let length := leValue prefixBytes
    let state := { state with offset := state.offset + 4 }
    if state.offset > payload.length ∨ length > payload.length - state.offset then
      (.error .protocolError, state)
    else
      match malloc allocator (length + 1) state with
      | none => (.error .outOfMemory, state.storeNat output 8 0)
      | some (data, state) =>
        let state := state.storeNat output 8 data
        match codecRead payload state.offset length with
        | .error failure => (.error failure, (free data state).storeNat output 8 0)
        | .ok bytes =>
          let state := { state.store data bytes with offset := state.offset + length }
          (.ok (), (state.store (data + length) [0]).storeNat (output + 8) 8 length)

/-- Decode `count` elements, starting with number `index`. -/
def decodeElements (decodeElement : ℕ → DecodeState → Decoded) (data elementSize : ℕ) :
    ℕ → ℕ → DecodeState → Decoded
  | 0, _, state => (.ok (), state)
  | count + 1, index, state =>
    Outcome.andThen (decodeElement (data + index * elementSize) state)
      (decodeElements decodeElement data elementSize count (index + 1))

/-- The array branch of `codec_value` over a decoder for one element.  When an
element fails, the release function is called once, on the start of the array. -/
def decodeArray (allocator : Allocator) (payload : List UInt8) (elementSize : ℕ)
    (decodeElement : ℕ → DecodeState → Decoded)
    (releaseElement : ℕ → DecodeState → DecodeState) (output : ℕ) (state : DecodeState) :
    Decoded :=
  match codecRead payload state.offset 4 with
  | .error failure => (.error failure, state)
  | .ok prefixBytes =>
    let count := leValue prefixBytes
    let state := { state with offset := state.offset + 4 }
    if elementSize = 0 ∧ count ≠ 0 then (.error .protocolError, state)
    else if count ≠ 0 ∧ count > sizeMax / elementSize then (.error .protocolError, state)
    else if count = 0 then
      (.ok (), (state.storeNat output 8 0).storeNat (output + 8) 8 0)
    else
      match calloc allocator (count * elementSize) state with
      | none => (.error .outOfMemory, state.storeNat output 8 0)
      | some (data, state) =>
        let state := (state.storeNat output 8 data).storeNat (output + 8) 8 count
        match decodeElements decodeElement data elementSize count 0 state with
        | (.ok (), state) => (.ok (), state)
        | (.error failure, state) =>
          let state := free data (releaseElement data state)
          (.error failure, (state.storeNat output 8 0).storeNat (output + 8) 8 0)

/-- A scalar of `size` bytes; `normalise` is the conversion to the target type. -/
def decodeScalar (payload : List UInt8) (size : ℕ) (normalise : ℕ → List UInt8)
    (output : ℕ) (state : DecodeState) : Decoded :=
  match codecRead payload state.offset size with
  | .error failure => (.error failure, state)
  | .ok bytes =>
    (.ok (), { state.store output (normalise (leValue bytes)) with
      offset := state.offset + size })

def decodeFlat (allocator : Allocator) (payload : List UInt8) (kind : FacetType)
    (size output : ℕ) (state : DecodeState) : Decoded :=
  match kind with
  | .string => decodeString allocator payload output state
  | .uuid =>
    match codecRead payload state.offset 16 with
    | .error failure => (.error failure, state)
    | .ok bytes => (.ok (), { state.store output bytes with offset := state.offset + 16 })
  | .bool =>
    decodeScalar payload size (fun value => [if value ≠ 0 then 1 else 0]) output state
  | .u8 | .u16 | .u32 | .u64 | .i8 | .i16 | .i32 | .i64 =>
    decodeScalar payload size (leBytes size) output state
  | _ => (.error .notSupported, state)

mutual

/-- `codec_value` with `decoding == 1`. -/
def decodeValue (allocator : Allocator) (payload : List UInt8) (kind : FacetType) :
    FacetTypeMeta → ℕ → DecodeState → Decoded
  | .null, output, state =>
    match kind with
    | .array =>
      decodeArray allocator payload 0 (fun _ state => (.error .notSupported, state))
        (fun _ state => state) output state
    | .struct => (.error .invalidArgument, state)
    | _ => decodeFlat allocator payload kind (codecTypeSize kind .null) output state
  | .mk metaKind underlying size elementType elementKind fields, output, state =>
    match codecKind kind (.mk metaKind underlying size elementType elementKind fields) with
    | .array =>
      decodeArray allocator payload
        (codecTypeSize (elementKindOf elementType elementKind) elementType)
        (decodeValue allocator payload (elementKindOf elementType elementKind) elementType)
        (codecReleaseValue (elementKindOf elementType elementKind) elementType)
        output state
    | .struct => decodeFields allocator payload fields output state
    | flat =>
      decodeFlat allocator payload flat
        (codecTypeSize flat (.mk metaKind underlying size elementType elementKind fields))
        output state

/-- The struct branch of `codec_value` with `decoding == 1`. -/
def decodeFields (allocator : Allocator) (payload : List UInt8) :
    FacetStructFields → ℕ → DecodeState → Decoded
  | .nil, _, state => (.ok (), state)
  | .cons typeKind type offset rest, output, state =>
    Outcome.andThen (decodeValue allocator payload typeKind type (output + offset) state)
      (decodeFields allocator payload rest output)

end

end FacetOS.Rpc
