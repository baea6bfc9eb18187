import FacetOS.Rpc.Grammar

/-!
# Runs of the decoder

What the decoder asks of its surroundings: the bytes it copies out of the payload
and the memory it requests.  `valueEvents` lists these events in the order in which
`codec_value` causes them.

The possible runs are then described without heap and allocator: a request is
granted or refused, and everything else follows from the payload.  Each decoder
performs such a run, and what holds of all runs holds of the decoder.
-/

namespace FacetOS.Rpc

open LittleEndian ByteMemory

/-- A copy out of the payload, `malloc((size_t)length + 1)` for a string, or
`calloc(count, size)` for an array. -/
inductive DecodeEvent
  | read (offset size : ℕ)
  | malloc (length : ℕ) (granted : Bool)
  | calloc (count size : ℕ) (granted : Bool)
  deriving DecidableEq, Repr

/-- The number of bytes that an event requests from the allocator. -/
def DecodeEvent.requested : DecodeEvent → ℕ
  | .read _ _ => 0
  | .malloc length _ => length + 1
  | .calloc count size _ => count * size

def DecodeEvent.refused : DecodeEvent → Bool
  | .read _ _ => false
  | .malloc _ granted => !granted
  | .calloc _ _ granted => !granted

/-! ## The events of `codec_value` -/

def readEvents (payload : List UInt8) (offset size : ℕ) : List DecodeEvent :=
  match codecRead payload offset size with
  | .ok _ => [.read offset size]
  | .error _ => []

def stringEvents (allocator : Allocator) (payload : List UInt8) (state : DecodeState) :
    List DecodeEvent :=
  match codecRead payload state.offset 4 with
  | .error _ => []
  | .ok header =>
    let length := leValue header
    let after := { state with offset := state.offset + 4 }
    .read state.offset 4 ::
      if after.offset > payload.length ∨ length > payload.length - after.offset then []
      else
        match malloc allocator (length + 1) after with
        | none => [.malloc length false]
        | some _ => .malloc length true :: readEvents payload after.offset length

/-- The events of the next step, unless this one failed. -/
def Outcome.laterEvents (result : Decoded) (nextEvents : DecodeState → List DecodeEvent) :
    List DecodeEvent :=
  match result with
  | (.ok (), after) => nextEvents after
  | (.error _, _) => []

def elementsEvents (decodeElement : ℕ → DecodeState → Decoded)
    (elementEvents : ℕ → DecodeState → List DecodeEvent) (data elementSize : ℕ) :
    ℕ → ℕ → DecodeState → List DecodeEvent
  | 0, _, _ => []
  | count + 1, index, state =>
    elementEvents (data + index * elementSize) state ++
      Outcome.laterEvents (decodeElement (data + index * elementSize) state)
        (elementsEvents decodeElement elementEvents data elementSize count (index + 1))

def arrayEvents (allocator : Allocator) (payload : List UInt8) (elementSize : ℕ)
    (decodeElement : ℕ → DecodeState → Decoded)
    (elementEvents : ℕ → DecodeState → List DecodeEvent) (output : ℕ) (state : DecodeState) :
    List DecodeEvent :=
  match codecRead payload state.offset 4 with
  | .error _ => []
  | .ok header =>
    let count := leValue header
    let after := { state with offset := state.offset + 4 }
    .read state.offset 4 ::
      if elementSize = 0 ∧ count ≠ 0 then []
      else if count ≠ 0 ∧ count > sizeMax / elementSize then []
      else if count = 0 then []
      else
        match calloc allocator (count * elementSize) after with
        | none => [.calloc count elementSize false]
        | some (data, after) =>
          .calloc count elementSize true ::
            elementsEvents decodeElement elementEvents data elementSize count 0
              ((after.storeNat output 8 data).storeNat (output + 8) 8 count)

def flatEvents (allocator : Allocator) (payload : List UInt8) (kind : FacetType) (size : ℕ)
    (state : DecodeState) : List DecodeEvent :=
  match kind with
  | .string => stringEvents allocator payload state
  | .uuid => readEvents payload state.offset 16
  | .bool | .u8 | .u16 | .u32 | .u64 | .i8 | .i16 | .i32 | .i64 =>
    readEvents payload state.offset size
  | _ => []

mutual

/-- The events of `codec_value` with `decoding == 1`. -/
def valueEvents (allocator : Allocator) (payload : List UInt8) (kind : FacetType) :
    FacetTypeMeta → ℕ → DecodeState → List DecodeEvent
  | .null, output, state =>
    match kind with
    | .array =>
      arrayEvents allocator payload 0 (fun _ state => (.error .notSupported, state))
        (fun _ _ => []) output state
    | .struct => []
    | _ => flatEvents allocator payload kind (codecTypeSize kind .null) state
  | .mk metaKind underlying size elementType elementKind fields, output, state =>
    match codecKind kind (.mk metaKind underlying size elementType elementKind fields) with
    | .array =>
      arrayEvents allocator payload
        (codecTypeSize (elementKindOf elementType elementKind) elementType)
        (decodeValue allocator payload (elementKindOf elementType elementKind) elementType)
        (valueEvents allocator payload (elementKindOf elementType elementKind) elementType)
        output state
    | .struct => fieldsEvents allocator payload fields output state
    | flat =>
      flatEvents allocator payload flat
        (codecTypeSize flat (.mk metaKind underlying size elementType elementKind fields))
        state

def fieldsEvents (allocator : Allocator) (payload : List UInt8) :
    FacetStructFields → ℕ → DecodeState → List DecodeEvent
  | .nil, _, _ => []
  | .cons typeKind type offset rest, output, state =>
    valueEvents allocator payload typeKind type (output + offset) state ++
      Outcome.laterEvents
        (decodeValue allocator payload typeKind type (output + offset) state)
        (fieldsEvents allocator payload rest output)

end

/-! ## Runs without a heap -/

/-- The events of a run, its result code and the offset where it ends. -/
structure Trace where
  events : List DecodeEvent
  code : Except FacetError Unit
  stop : ℕ

/-- The run that a decoder performed. -/
def Outcome.trace (result : Decoded) (events : List DecodeEvent) : Trace :=
  ⟨events, result.1, result.2.offset⟩

section Runs

variable (payload : List UInt8)

inductive ReadRun (size start : ℕ) : Trace → Prop
  | short (hshort : payload.length < start + size) :
      ReadRun size start ⟨[], .error .protocolError, start⟩
  | copied (hle : start + size ≤ payload.length) :
      ReadRun size start ⟨[.read start size], .ok (), start + size⟩

inductive StringRun (start : ℕ) : Trace → Prop
  | short (hshort : payload.length < start + 4) :
      StringRun start ⟨[], .error .protocolError, start⟩
  | cut (length : ℕ) (hlength : length < 2 ^ 32)
      (hheader : Carries payload start (leBytes 4 length))
      (hshort : payload.length < start + 4 + length) :
      StringRun start ⟨[.read start 4], .error .protocolError, start + 4⟩
  | refused (length : ℕ) (hlength : length < 2 ^ 32)
      (hheader : Carries payload start (leBytes 4 length))
      (hle : start + 4 + length ≤ payload.length) :
      StringRun start ⟨[.read start 4, .malloc length false], .error .outOfMemory, start + 4⟩
  | copied (length : ℕ) (hlength : length < 2 ^ 32)
      (hheader : Carries payload start (leBytes 4 length))
      (hle : start + 4 + length ≤ payload.length) :
      StringRun start ⟨[.read start 4, .malloc length true, .read (start + 4) length], .ok (),
        start + 4 + length⟩

/-- The run of a kind that the codec refuses. -/
def RefusedRun (failure : FacetError) (start : ℕ) (trace : Trace) : Prop :=
  trace = ⟨[], .error failure, start⟩

/-- One run after another. -/
inductive ThenRun (first second : ℕ → Trace → Prop) (start : ℕ) : Trace → Prop
  | failed {events : List DecodeEvent} {failure : FacetError} {stop : ℕ}
      (hfirst : first start ⟨events, .error failure, stop⟩) :
      ThenRun first second start ⟨events, .error failure, stop⟩
  | next {events : List DecodeEvent} {middle : ℕ} {trace : Trace}
      (hfirst : first start ⟨events, .ok (), middle⟩) (hsecond : second middle trace) :
      ThenRun first second start ⟨events ++ trace.events, trace.code, trace.stop⟩

/-- The run that does nothing. -/
def DoneRun (start : ℕ) (trace : Trace) : Prop :=
  trace = ⟨[], .ok (), start⟩

def ElementsRun (element : ℕ → Trace → Prop) : ℕ → ℕ → Trace → Prop
  | 0 => DoneRun
  | count + 1 => ThenRun element (ElementsRun element count)

inductive ArrayRun (elementSize : ℕ) (element : ℕ → Trace → Prop) (start : ℕ) : Trace → Prop
  | short (hshort : payload.length < start + 4) :
      ArrayRun elementSize element start ⟨[], .error .protocolError, start⟩
  | unfit (count : ℕ) (hcount : count < 2 ^ 32)
      (hheader : Carries payload start (leBytes 4 count))
      (hunfit : ¬ Storable count elementSize) :
      ArrayRun elementSize element start ⟨[.read start 4], .error .protocolError, start + 4⟩
  | empty (hheader : Carries payload start (leBytes 4 0)) :
      ArrayRun elementSize element start ⟨[.read start 4], .ok (), start + 4⟩
  | refused (count : ℕ) (hcount : count < 2 ^ 32)
      (hheader : Carries payload start (leBytes 4 count))
      (hfits : Storable count elementSize) (hnonzero : count ≠ 0) :
      ArrayRun elementSize element start
        ⟨[.read start 4, .calloc count elementSize false], .error .outOfMemory, start + 4⟩
  | elements (count : ℕ) (hcount : count < 2 ^ 32)
      (hheader : Carries payload start (leBytes 4 count))
      (hfits : Storable count elementSize) (hnonzero : count ≠ 0) {trace : Trace}
      (htrace : ElementsRun element count (start + 4) trace) :
      ArrayRun elementSize element start
        ⟨.read start 4 :: .calloc count elementSize true :: trace.events, trace.code,
          trace.stop⟩

def FlatRun (kind : FacetType) : ℕ → Trace → Prop :=
  match kind with
  | .string => StringRun payload
  | .bool => ReadRun payload 1
  | _ =>
    match scalarWidth kind with
    | some width => ReadRun payload width
    | none => RefusedRun .notSupported

mutual

/-- The possible runs of `codec_value` with `decoding == 1`. -/
def ValueRun (kind : FacetType) : FacetTypeMeta → ℕ → Trace → Prop
  | .null =>
    match kind with
    | .array => ArrayRun payload 0 (RefusedRun .notSupported)
    | .struct => RefusedRun .invalidArgument
    | _ => FlatRun payload kind
  | .mk metaKind underlying size elementType elementKind fields =>
    match codecKind kind (.mk metaKind underlying size elementType elementKind fields) with
    | .array =>
      ArrayRun payload
        (codecTypeSize (elementKindOf elementType elementKind) elementType)
        (ValueRun (elementKindOf elementType elementKind) elementType)
    | .struct => FieldsRun fields
    | flat => FlatRun payload flat

def FieldsRun : FacetStructFields → ℕ → Trace → Prop
  | .nil => DoneRun
  | .cons typeKind type _ rest => ThenRun (ValueRun typeKind type) (FieldsRun rest)

end

end Runs

section Forms

variable {allocator : Allocator} {payload : List UInt8} {kind : FacetType}
  {metadata : FacetTypeMeta}

theorem valueEvents_flat (hflat : Flat kind metadata) (output : ℕ) (state : DecodeState) :
    valueEvents allocator payload kind metadata output state =
      flatEvents allocator payload (codecKind kind metadata)
        (codecTypeSize (codecKind kind metadata) metadata) state := by
  obtain ⟨harray, hstruct⟩ := hflat
  cases metadata <;> unfold valueEvents <;> split <;> first | rfl | contradiction

theorem valueRun_flat (hflat : Flat kind metadata) :
    ValueRun payload kind metadata = FlatRun payload (codecKind kind metadata) := by
  obtain ⟨harray, hstruct⟩ := hflat
  cases metadata <;> unfold ValueRun <;> split <;> first | rfl | contradiction

end Forms

variable {element : ℕ → Trace → Prop} {releaseElement : ℕ → DecodeState → DecodeState}
  {language : Word → Prop}

/-! ## The decoder performs such a run -/

section Performed

variable {allocator : Allocator} {payload : List UInt8} {state : DecodeState} {output : ℕ}

theorem malloc_offset {size : ℕ} {allocated : ℕ × DecodeState}
    (hplace : malloc allocator size state = some allocated) :
    allocated.2.offset = state.offset := by
  obtain ⟨data, hdata, rfl⟩ := Option.map_eq_some_iff.mp hplace
  rfl

theorem calloc_offset {size : ℕ} {allocated : ℕ × DecodeState}
    (hplace : calloc allocator size state = some allocated) :
    allocated.2.offset = state.offset := by
  obtain ⟨placed, hplaced, rfl⟩ := Option.map_eq_some_iff.mp hplace
  have hoffset := malloc_offset hplaced
  exact hoffset

theorem free_offset (address : ℕ) (state : DecodeState) :
    (free address state).offset = state.offset := by
  rw [free]
  split <;> rfl

@[simp]
theorem storeNat_offset (state : DecodeState) (address size value : ℕ) :
    (state.storeNat address size value).offset = state.offset := rfl

theorem decodeScalar_run (width : ℕ) (normalise : ℕ → List UInt8) :
    ReadRun payload width state.offset
      (Outcome.trace (decodeScalar payload width normalise output state)
        (readEvents payload state.offset width)) := by
  rw [decodeScalar, readEvents]
  rcases codecRead_cases payload state.offset width with ⟨bytes, hread, hcarries, rfl⟩ |
    ⟨hread, hshort⟩
  · rw [hread]
    exact .copied hcarries.le
  · rw [hread]
    exact .short hshort

theorem decodeString_run :
    StringRun payload state.offset
      (Outcome.trace (decodeString allocator payload output state)
        (stringEvents allocator payload state)) := by
  rw [decodeString, stringEvents]
  rcases codecRead_header payload state.offset with ⟨header, hread, hlt, hheader⟩ | ⟨hread, hshort⟩
  · rw [hread]
    dsimp only
    by_cases hcut : state.offset + 4 > payload.length ∨
        leValue header > payload.length - (state.offset + 4)
    · rw [if_pos hcut, if_pos hcut]
      exact .cut (leValue header) hlt hheader (by omega)
    rw [if_neg hcut, if_neg hcut]
    have hle : state.offset + 4 + leValue header ≤ payload.length := by omega
    cases hplace : malloc allocator (leValue header + 1)
        { state with offset := state.offset + 4 } with
    | none => exact .refused (leValue header) hlt hheader hle
    | some allocated =>
      have hafter := malloc_offset hplace
      obtain ⟨data, after⟩ := allocated
      dsimp only [DecodeState.storeNat, DecodeState.store] at hafter ⊢
      rw [hafter, readEvents]
      rcases codecRead_cases payload (state.offset + 4) (leValue header) with
        ⟨bytes, hcopied, -, -⟩ | ⟨-, hshort⟩
      · rw [hcopied]
        exact .copied (leValue header) hlt hheader hle
      · omega
  · rw [hread]
    exact .short hshort

theorem decodeFlat_uuid {size : ℕ} :
    decodeFlat allocator payload .uuid size output state =
      decodeScalar payload 16 (leBytes 16) output state := by
  rw [decodeFlat, decodeScalar]
  rcases codecRead_cases payload state.offset 16 with ⟨bytes, hread, -, hlength⟩ | ⟨hread, -⟩
  · have hbytes := leBytes_leValue bytes
    rw [hlength] at hbytes
    rw [hread]
    dsimp only
    rw [hbytes]
  · rw [hread]

theorem decodeFlat_run (kind : FacetType) (metadata : FacetTypeMeta) :
    FlatRun payload kind state.offset
      (Outcome.trace
        (decodeFlat allocator payload kind (codecTypeSize kind metadata) output state)
        (flatEvents allocator payload kind (codecTypeSize kind metadata) state)) := by
  cases kind with
  | string => exact decodeString_run
  | uuid =>
    rw [decodeFlat_uuid]
    exact decodeScalar_run 16 _
  | bool | u8 | u16 | u32 | u64 | i8 | i16 | i32 | i64 =>
    cases metadata <;> exact decodeScalar_run _ _
  | handle | bytes | localPtr | enum | struct | array => exact rfl

/-- Sequencing of decoders is sequencing of runs. -/
theorem andThen_run {first second : ℕ → Trace → Prop} {result : Decoded}
    {next : DecodeState → Decoded} {events : List DecodeEvent}
    {nextEvents : DecodeState → List DecodeEvent} {start : ℕ}
    (hfirst : first start (Outcome.trace result events))
    (hnext : ∀ after : DecodeState,
      second after.offset (Outcome.trace (next after) (nextEvents after))) :
    ThenRun first second start
      (Outcome.trace (Outcome.andThen result next)
        (events ++ Outcome.laterEvents result nextEvents)) := by
  obtain ⟨code, after⟩ := result
  cases code with
  | error failure =>
    rw [Outcome.laterEvents, List.append_nil]
    exact .failed hfirst
  | ok => exact .next hfirst (hnext after)

variable {decodeElement : ℕ → DecodeState → Decoded} {elementEvents : ℕ → DecodeState → List
    DecodeEvent}
  (hstep : ∀ address (state : DecodeState), element state.offset (Outcome.trace (decodeElement
    address state) (elementEvents address state)))
include hstep

theorem decodeElements_run (data elementSize count index : ℕ) (state : DecodeState) :
    ElementsRun element count state.offset
      (Outcome.trace (decodeElements decodeElement data elementSize count index state)
        (elementsEvents decodeElement elementEvents data elementSize count index state)) := by
  induction count generalizing index state with
  | zero => exact rfl
  | succ count ih => exact andThen_run (hstep _ state) (ih (index + 1))

theorem decodeArray_run
    (hrelease : ∀ address (state : DecodeState),
      (releaseElement address state).offset = state.offset) (elementSize : ℕ) :
    ArrayRun payload elementSize element state.offset
      (Outcome.trace
        (decodeArray allocator payload elementSize decodeElement releaseElement output state)
        (arrayEvents allocator payload elementSize decodeElement elementEvents output state)) := by
  rw [decodeArray, arrayEvents]
  rcases codecRead_header payload state.offset with ⟨header, hread, hlt, hheader⟩ | ⟨hread, hshort⟩
  · rw [hread]
    dsimp only
    split_ifs with hsize hfit hzero
    · exact .unfit _ hlt hheader fun hfits => (storable_iff.mp hfits).1 hsize
    · exact .unfit _ hlt hheader fun hfits => (storable_iff.mp hfits).2 hfit
    · rw [hzero] at hheader
      exact .empty hheader
    have hfits : Storable (leValue header) elementSize := storable_iff.mpr ⟨hsize, hfit⟩
    cases hplace : calloc allocator (leValue header * elementSize)
        { state with offset := state.offset + 4 } with
    | none => exact .refused _ hlt hheader hfits hzero
    | some allocated =>
      have hafter := calloc_offset hplace
      obtain ⟨data, after⟩ := allocated
      dsimp only at hafter ⊢
      have helements := decodeElements_run hstep data elementSize (leValue header) 0
        ((after.storeNat output 8 data).storeNat (output + 8) 8 (leValue header))
      change ElementsRun element _ after.offset _ at helements
      rw [hafter] at helements
      have hrun : ArrayRun payload elementSize element state.offset _ :=
        .elements _ hlt hheader hfits hzero helements
      generalize decodeElements decodeElement data elementSize (leValue header) 0
        ((after.storeNat output 8 data).storeNat (output + 8) 8 (leValue header)) =
        result at hrun ⊢
      obtain ⟨code, last⟩ := result
      cases code with
      | ok => exact hrun
      | error failure =>
        simpa only [Outcome.trace, storeNat_offset, free_offset, hrelease] using hrun
  · rw [hread]
    exact .short hshort

end Performed

/-! ### Releasing reads no payload -/

theorem releaseString_offset (value : ℕ) (state : DecodeState) :
    (releaseString value state).offset = state.offset := by
  rw [releaseString, storeNat_offset, storeNat_offset, free_offset]

theorem releaseElements_offset (hstep : ∀ address (state : DecodeState),
      (releaseElement address state).offset = state.offset) (data elementSize count index : ℕ)
    (state : DecodeState) :
    (releaseElements releaseElement data elementSize count index state).offset =
      state.offset := by
  induction count generalizing index state with
  | zero => rfl
  | succ count ih =>
    rw [releaseElements, ih]
    exact hstep _ state

theorem releaseArray_offset (hstep : ∀ address (state : DecodeState),
      (releaseElement address state).offset = state.offset) (elementKind : FacetType)
    (elementSize value : ℕ) (state : DecodeState) :
    (releaseArray elementKind elementSize releaseElement value state).offset =
      state.offset := by
  rw [releaseArray]
  rw [storeNat_offset, storeNat_offset, free_offset]
  split
  · exact releaseElements_offset hstep _ _ _ _ state
  · rfl

mutual

theorem codecReleaseValue_offset (kind : FacetType) :
    (metadata : FacetTypeMeta) → (value : ℕ) → (state : DecodeState) →
      (codecReleaseValue kind metadata value state).offset = state.offset
  | .null, value, state => by
      by_cases hvalue : value = 0
      · cases kind <;> simp only [codecReleaseValue, hvalue, if_true]
      · cases kind <;> simp only [codecReleaseValue, hvalue, if_false]
        · exact releaseString_offset value state
        · exact releaseArray_offset (fun _ _ => rfl) _ _ value state
  | .mk _ _ _ elementType elementKind fields, value, state => by
      by_cases hvalue : value = 0
      · cases kind <;> simp only [codecReleaseValue, hvalue, if_true]
      · cases kind <;> simp only [codecReleaseValue, hvalue, if_false]
        · exact releaseString_offset value state
        · exact releaseFields_offset fields value state
        · exact releaseArray_offset (codecReleaseValue_offset elementKind elementType)
            _ _ value state

theorem releaseFields_offset :
    (fields : FacetStructFields) → (value : ℕ) → (state : DecodeState) →
      (releaseFields fields value state).offset = state.offset
  | .nil, _, _ => rfl
  | .cons typeKind type offset rest, value, state => by
      rw [releaseFields, releaseFields_offset rest]
      split
      · exact codecReleaseValue_offset typeKind type _ state
      · rfl

end

/-- Whatever the allocator does, the decoder performs a run of its description. -/
theorem decodeValue_run (allocator : Allocator) (payload : List UInt8) :
    (∀ kind metadata output (state : DecodeState), ValueRun payload kind metadata state.offset
      (Outcome.trace (decodeValue allocator payload kind metadata output state)
        (valueEvents allocator payload kind metadata output state))) ∧
      ∀ fields output (state : DecodeState), FieldsRun payload fields state.offset
        (Outcome.trace (decodeFields allocator payload fields output state)
          (fieldsEvents allocator payload fields output state)) := by
  refine description_induction (fun hflat _ _ => ?_) (fun _ _ => ?_) (fun _ _ => rfl)
    (fun harray helement _ _ => ?_) (fun hstruct hfields _ _ => ?_) (fun _ _ => rfl)
    (fun hfirst hrest _ _ => ?_)
  · rw [valueRun_flat hflat, decodeValue_flat hflat, valueEvents_flat hflat]
    exact decodeFlat_run _ _
  · exact decodeArray_run (fun _ _ => rfl) (fun _ _ => rfl) 0
  · rw [ValueRun, decodeValue, valueEvents, harray]
    exact decodeArray_run helement (codecReleaseValue_offset _ _) _
  · rw [ValueRun, decodeValue, valueEvents, hstruct]
    exact hfields _ _
  · exact andThen_run (hfirst _ _) (hrest _)

/-! ## Runs follow the grammar -/

/-- A successful run has consumed a tree of the language; a failed one ran out of
memory, or the bytes do not begin with such a tree. -/
def Follows {Tree : Type} (payload : List UInt8) (bytes : Tree → List UInt8)
    (language : Tree → Prop) (start : ℕ) (trace : Trace) : Prop :=
  match trace.code with
  | .ok () => ∃ tree, language tree ∧ Carries payload start (bytes tree) ∧
      trace.stop = start + (bytes tree).length
  | .error failure => failure = .outOfMemory ∨
      ∀ tree, language tree → ¬ Carries payload start (bytes tree)

section Follow

variable {payload : List UInt8} {start : ℕ} {trace : Trace}

theorem Follows.ok_iff {Tree : Type} {bytes : Tree → List UInt8} {language : Tree → Prop}
    (hfollows : Follows payload bytes language start trace)
    (hmemory : trace.code ≠ .error .outOfMemory) :
    trace.code = .ok () ↔ ∃ tree, language tree ∧ Carries payload start (bytes tree) := by
  obtain ⟨events, code, stop⟩ := trace
  cases code with
  | ok =>
    obtain ⟨tree, htree, hcarries, -⟩ := hfollows
    exact ⟨fun _ => ⟨tree, htree, hcarries⟩, fun _ => rfl⟩
  | error failure =>
    constructor
    · intro hok
      cases hok
    · rintro ⟨tree, htree, hcarries⟩
      rcases hfollows with rfl | hnone
      · exact absurd rfl hmemory
      · exact absurd hcarries (hnone tree htree)

theorem follows_done (hstart : start ≤ payload.length) (htrace : DoneRun start trace) :
    Follows payload bytesAll (fun words => words = []) start trace := by
  cases htrace
  exact ⟨[], rfl, carries_iff.mpr ⟨hstart, List.nil_prefix⟩, rfl⟩

theorem follows_then {languages : List Word → Prop} {first second : ℕ → Trace → Prop}
    (hfirst : ∀ {trace}, first start trace → Follows payload Word.bytes language start trace)
    (hsecond : ∀ {middle trace}, middle ≤ payload.length → second middle trace →
      Follows payload bytesAll languages middle trace)
    (hlanguage : Unambiguous Word.bytes language) (htrace : ThenRun first second start trace) :
    Follows payload bytesAll (Sequence language languages) start trace := by
  cases htrace with
  | failed hfailed =>
    refine (hfirst hfailed).imp_right fun hnone => ?_
    rintro _ ⟨word, tail, rfl, hword, -⟩ hcarries
    exact hnone word hword hcarries.left
  | @next events middle trace hok hlater =>
    obtain ⟨word, hword, hcarries, hmiddle⟩ := hfirst hok
    dsimp only at hmiddle
    have hrest := hsecond (hmiddle ▸ hcarries.le) hlater
    rw [hmiddle] at hrest
    obtain ⟨later, code, stop⟩ := trace
    cases code with
    | ok =>
      obtain ⟨tail, htail, hcarriesTail, hend⟩ := hrest
      refine ⟨word :: tail, ⟨word, tail, rfl, hword, htail⟩, hcarries.append hcarriesTail, ?_⟩
      rw [hend, bytesAll, List.length_append, Nat.add_assoc]
    | error failure =>
      refine hrest.imp_right fun hnone => ?_
      rintro _ ⟨other, others, rfl, hother, hothers⟩ hboth
      obtain rfl := Carries.unique hlanguage hother hword hboth.left hcarries
      exact hnone others hothers hboth.right

section

variable (hstep : ∀ {start trace}, start ≤ payload.length → element start trace → Follows payload
    Word.bytes language start trace)
include hstep

theorem follows_elements
    (hlanguage : Unambiguous Word.bytes language) {count : ℕ} (hstart : start ≤ payload.length)
    (htrace : ElementsRun element count start trace) :
    Follows payload bytesAll (Repeated language count) start trace := by
  induction count generalizing start trace with
  | zero =>
    rw [show Repeated language 0 = fun words => words = [] from
      funext fun words => propext repeated_zero]
    exact follows_done hstart htrace
  | succ count ih =>
    rw [show Repeated language (count + 1) = Sequence language (Repeated language count) from
      funext fun words => propext repeated_succ]
    exact follows_then (hstep hstart) ih hlanguage htrace

theorem follows_array {elementSize : ℕ} (hlanguage : Unambiguous Word.bytes language)
    (htrace : ArrayRun payload elementSize element start trace) :
    Follows payload Word.bytes (ArrayWord Storable elementSize language) start trace := by
  cases htrace with
  | short hshort =>
    right
    rintro _ ⟨elements, rfl, -⟩ hcarries
    have hle := hcarries.le
    rw [Word.bytes, List.length_append, length_leBytes] at hle
    omega
  | unfit count hcount hheader hunfit =>
    right
    rintro _ ⟨elements, rfl, helements, hfits, -⟩ hcarries
    rw [(hheader.count_eq hcount helements hcarries).1] at hfits
    exact hunfit hfits
  | empty hheader =>
    refine ⟨.array [], ⟨[], rfl, by decide, by simp [Storable], by simp⟩, ?_, ?_⟩
    · simpa [Word.bytes, bytesAll] using hheader
    · simp [Word.bytes, bytesAll]
  | refused => exact .inl rfl
  | @elements count hcount hheader hfits hnonzero trace hrun =>
    have hrest := follows_elements hstep hlanguage hheader.header_le hrun
    obtain ⟨later, code, stop⟩ := trace
    cases code with
    | ok =>
      obtain ⟨elements, ⟨rfl, hall⟩, hcarries, hend⟩ := hrest
      refine ⟨.array elements, ⟨elements, rfl, hcount, hfits, hall⟩, ?_, ?_⟩
      · rw [Word.bytes]
        apply hheader.append
        rwa [length_leBytes]
      · dsimp only at hend ⊢
        rw [hend, Word.bytes, List.length_append, length_leBytes, Nat.add_assoc]
    | error failure =>
      refine hrest.imp_right fun hnone => ?_
      rintro _ ⟨elements, rfl, helements, -, hall⟩ hcarries
      obtain ⟨hsame, hbehind⟩ := hheader.count_eq hcount helements hcarries
      exact hnone elements ⟨hsame, hall⟩ hbehind

end

theorem follows_scalar {kind : FacetType} {width : ℕ} (hwidth : scalarWidth kind = some width)
    (htrace : ReadRun payload width start trace) :
    Follows payload Word.bytes (FlatWord kind) start trace := by
  cases htrace with
  | short hshort =>
    right
    intro word hword hcarries
    obtain ⟨bytes, hlength, rfl⟩ := (flatWord_scalar hwidth word).mp hword
    have hle := hcarries.le
    rw [Word.bytes] at hle
    omega
  | copied hle =>
    obtain ⟨hcarries, hlength⟩ := carries_take hle
    exact ⟨.scalar _, (flatWord_scalar hwidth _).mpr ⟨_, hlength, rfl⟩, hcarries,
      congrArg (start + ·) hlength.symm⟩

theorem follows_bool (htrace : ReadRun payload 1 start trace) :
    Follows payload Word.bytes (FlatWord .bool) start trace := by
  cases htrace with
  | short hshort =>
    right
    intro word hword hcarries
    obtain ⟨byte, rfl⟩ := (flatWord_bool word).mp hword
    have hle := hcarries.le
    rw [Word.bytes, List.length_singleton] at hle
    omega
  | copied hle =>
    obtain ⟨hcarries, hlength⟩ := carries_take hle
    obtain ⟨byte, hbyte⟩ := List.length_eq_one_iff.mp hlength
    rw [hbyte] at hcarries
    exact ⟨.bool byte, rfl, hcarries, rfl⟩

theorem follows_string (htrace : StringRun payload start trace) :
    Follows payload Word.bytes (FlatWord .string) start trace := by
  cases htrace with
  | short hshort =>
    right
    intro word hword hcarries
    obtain ⟨bytes, -, rfl⟩ := (flatWord_string word).mp hword
    have hle := hcarries.le
    rw [Word.bytes, List.length_append, length_leBytes] at hle
    omega
  | cut length hlength hheader hshort =>
    right
    intro word hword hcarries
    obtain ⟨bytes, hbytes, rfl⟩ := (flatWord_string word).mp hword
    obtain ⟨hsame, hrest⟩ := hheader.count_eq hlength hbytes hcarries
    have hle := hrest.le
    omega
  | refused => exact .inl rfl
  | copied length hlength hheader hle =>
    obtain ⟨hcarries, hcount⟩ := carries_take hle
    refine ⟨.string ((payload.drop (start + 4)).take length), ⟨rfl, by omega⟩, ?_, ?_⟩
    · rw [Word.bytes, hcount]
      apply hheader.append
      rwa [length_leBytes]
    · rw [Word.bytes, List.length_append, length_leBytes, hcount, Nat.add_assoc]

theorem follows_flat {kind : FacetType} (htrace : FlatRun payload kind start trace) :
    Follows payload Word.bytes (FlatWord kind) start trace := by
  cases kind with
  | string => exact follows_string htrace
  | bool => exact follows_bool htrace
  | uuid | u8 | u16 | u32 | u64 | i8 | i16 | i32 | i64 => exact follows_scalar rfl htrace
  | handle | bytes | localPtr | enum | struct | array =>
    cases htrace
    exact .inr fun word hword => absurd hword
      (not_flatWord rfl (by decide) (by decide) word)

end Follow

/-- Runs follow the grammar of their description. -/
theorem follows_value (payload : List UInt8) :
    (∀ kind metadata {start trace}, start ≤ payload.length →
      ValueRun payload kind metadata start trace →
      Follows payload Word.bytes (Spells Storable kind metadata) start trace) ∧
      ∀ fields {start trace}, start ≤ payload.length → FieldsRun payload fields start trace →
        Follows payload bytesAll (SpellsFields Storable fields) start trace := by
  refine description_induction (fun hflat _ _ _ htrace => ?_) (fun _ htrace => ?_)
    (fun _ htrace => ?_) (fun harray helement _ _ _ htrace => ?_)
    (fun hstruct hfields _ trace hstart htrace => ?_) follows_done
    (fun hfirst hrest _ _ hstart htrace => ?_)
  · rw [valueRun_flat hflat] at htrace
    rw [spells_flat hflat]
    exact follows_flat htrace
  · refine follows_array ?_ (fun _ _ _ _ hleft => hleft.elim) htrace
    rintro _ _ _ rfl
    exact .inr fun _ hword => hword.elim
  · cases htrace
    exact .inr fun _ hword => hword.elim
  · rw [ValueRun, harray] at htrace
    rw [Spells, harray]
    exact follows_array helement ((unambiguous_spells _).1 _ _) htrace
  · rw [ValueRun, hstruct] at htrace
    rw [Spells, hstruct]
    have hfollows := hfields hstart htrace
    obtain ⟨events, code, stop⟩ := trace
    cases code with
    | ok =>
      obtain ⟨words, hwords, hcarries, hend⟩ := hfollows
      exact ⟨.struct words, ⟨words, rfl, hwords⟩, hcarries, hend⟩
    | error failure =>
      refine hfollows.imp_right fun hnone => ?_
      rintro _ ⟨words, rfl, hwords⟩
      exact hnone words hwords
  · exact follows_then (hfirst hstart) hrest ((unambiguous_spells _).1 _ _) htrace

end FacetOS.Rpc
