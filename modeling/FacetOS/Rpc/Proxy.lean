import FacetOS.Rpc.Codec
import FacetOS.Rpc.Value

/-!
# Client proxies

`libfacet_proxy_client_call` marshals the arguments of a method call along the
method's metadata, hands the request to the transport and assigns the outputs
from the reply.  Every argument is an object of its C type at an address of the
client: the value of an `in` scalar, or the variable that a pointer designates.
A handle is the pointer it consists of.
-/

namespace FacetOS.Rpc

open LittleEndian ByteMemory

inductive FacetParamDirection
  | input
  | output
  | inout
  deriving DecidableEq, Repr

structure FacetIdlParam where
  direction : FacetParamDirection
  type : IdlType
  /-- The C compiler represents the parameter's enum type by a signed integer. -/
  signedEnum : Bool

/-- A parameter together with the address of its object. -/
structure Argument where
  param : FacetIdlParam
  address : ℕ

def Argument.block (argument : Argument) : Block :=
  ⟨argument.address, argument.param.type.cSize⟩

/-- `payload_type_for`. -/
def IdlType.payloadTypeFor : IdlType → Bool
  | .string | .array _ | .struct _ _ => true
  | .enum _ imported => imported
  | .int _ | .bool | .uuid | .handle | .localPtr => false

/-- Messages inside a process carry handles as pointers. -/
abbrev LocalMessage := FacetRpcMessage ℕ

/-- The parts of a message that are filled while it is built. -/
structure MessageBuilder where
  words : List UInt64
  handles : List ℕ
  codec : Option FacetRpcCodec

def MessageBuilder.empty : MessageBuilder :=
  ⟨[], [], none⟩

variable (builder : MessageBuilder)

def MessageBuilder.payload : List UInt8 :=
  (builder.codec.map FacetRpcCodec.data).getD []

def MessageBuilder.message (methodId : UInt32) : LocalMessage where
  protocolVersion := rpcProtocolVersion
  methodId := methodId
  flags := 0
  words := builder.words
  payload := builder.codec.map FacetRpcCodec.data
  payloadSize := builder.payload.length
  attachments := builder.handles.map fun handle => ⟨.handle, handle, 0⟩
  payload_readable := by
    intro bytes hpayload
    simp [MessageBuilder.payload, hpayload]

/-! ## Marshalling arguments -/

def appendWord (word : ℕ) : Option MessageBuilder :=
  if builder.words.length ≥ rpcMaxWords then none
  else some { builder with words := builder.words ++ [UInt64.ofNat word] }

def appendHandle (handle : ℕ) : Option MessageBuilder :=
  if builder.handles.length ≥ rpcMaxAttachments then none
  else some { builder with handles := builder.handles ++ [handle] }

variable (memory : Memory)

def appendUuid (address : ℕ) (builder : MessageBuilder) : Option MessageBuilder := do
  let builder ← appendWord builder (loadNat memory address 8)
  appendWord builder (loadNat memory (address + 8) 8)

/-- `facet_rpc_encode_value` behind what the payload holds already. -/
def encodePayload (type : IdlType) (address : ℕ)
    (builder : MessageBuilder) : Except FacetError MessageBuilder :=
  match encodeValue memory type.kindFor type.typeMeta address
      (builder.codec.getD ⟨[], 256⟩) with
  | .ok codec => .ok { builder with codec := some codec }
  | .error failure => .error failure

/-- What `append_input` and `append_input_value` have in common.  They differ in
the extension of an enum to a word and in what they do with a `local_ptr`. -/
def appendParameter (enumWord : ℕ → ℕ) (pointerWord : Option ℕ) (memory : Memory)
    (type : IdlType) (address : ℕ) (builder : MessageBuilder) : Option MessageBuilder :=
  match type with
  | .handle => appendHandle builder (loadNat memory address 8)
  | .uuid => appendUuid memory address builder
  | .int kind => (scalarWord memory address kind.facetType).bind (appendWord builder)
  | .bool => appendWord builder (if cBool memory address then 1 else 0)
  | .localPtr => pointerWord.bind (appendWord builder)
  | .enum underlying imported =>
    if imported then (encodePayload memory (.enum underlying imported) address builder).toOption
    else appendWord builder (enumWord (loadNat memory address 4))
  | .string => (encodePayload memory .string address builder).toOption
  | .array element => (encodePayload memory (.array element) address builder).toOption
  | .struct size fields => (encodePayload memory (.struct size fields) address builder).toOption

/-- `append_input`: a variadic argument.  An enum arrives as `unsigned int`. -/
def appendInput (type : IdlType) (address : ℕ) (builder : MessageBuilder) : Option MessageBuilder :=
  appendParameter id none memory type address builder

/-- `append_input_value`: the value behind a pointer.  An enum is read as `int32_t`. -/
def appendInputValue (type : IdlType) (address : ℕ)
    (builder : MessageBuilder) : Option MessageBuilder :=
  appendParameter (signExtend 4) (some (loadNat memory address 8)) memory type address builder

/-- The first loop of `libfacet_proxy_client_call`, after `outputs` output pointers. -/
def marshalArguments : List Argument → ℕ → MessageBuilder → Except FacetError MessageBuilder
  | [], _, builder => .ok builder
  | argument :: rest, outputs, builder =>
    match argument.param.direction with
    | .input =>
      match appendInput memory argument.param.type argument.address builder with
      | none => .error .notSupported
      | some builder => marshalArguments rest outputs builder
    | .output =>
      if outputs ≥ rpcMaxWords then .error .invalidArgument
      else marshalArguments rest (outputs + 1) builder
    | .inout =>
      if outputs ≥ rpcMaxWords then .error .invalidArgument
      else
        match appendInputValue memory argument.param.type argument.address builder with
        | none => .error .notSupported
        | some builder => marshalArguments rest (outputs + 1) builder

/-! ## Reading a message -/

/-- How far a message has been read. -/
structure ReadState where
  heap : Heap
  wordIndex : ℕ
  handleIndex : ℕ
  offset : ℕ

def ReadState.store (state : ReadState) (address : ℕ) (bytes : List UInt8) : ReadState :=
  { state with
    heap := { state.heap with memory := ByteMemory.store state.heap.memory address bytes } }

/-- The bytes of a scalar object that a word is converted to. -/
def wordBytes (type : IdlType) (word : UInt64) : List UInt8 :=
  match type with
  | .int kind => leBytes kind.width word.toNat
  | .bool => [if word ≠ 0 then 1 else 0]
  | .enum _ _ => leBytes 4 word.toNat
  | _ => leBytes 8 word.toNat

def readHandle (message : LocalMessage) (address : ℕ) (state : ReadState) :
    Outcome ReadState :=
  match message.attachments[state.handleIndex]? with
  | some ⟨.handle, handle, _⟩ =>
    (.ok (), { state.store address (leBytes 8 handle) with
      handleIndex := state.handleIndex + 1 })
  | _ => (.error .protocolError, state)

variable (allocator : Allocator)

/-- `facet_rpc_decode_value` at the read offset of the payload. -/
def readPayload (message : LocalMessage) (type : IdlType)
    (address : ℕ) (state : ReadState) : Outcome ReadState :=
  let decoded := decodeValue allocator message.payloadBytes type.kindFor type.typeMeta address
    ⟨state.heap, state.offset⟩
  (decoded.1, { state with heap := decoded.2.heap, offset := decoded.2.offset })

/-! ## Assigning outputs -/

/-- `assign_output` for a destination that is not null. -/
def assignOutput (reply : LocalMessage) (argument : Argument)
    (state : ReadState) : Outcome ReadState :=
  let type := argument.param.type
  match type with
  | .handle => readHandle reply argument.address state
  | .uuid =>
    match reply.words[state.wordIndex]?, reply.words[state.wordIndex + 1]? with
    | some low, some high =>
      (.ok (), { state.store argument.address
          (leBytes 8 low.toNat ++ leBytes 8 high.toNat) with
        wordIndex := state.wordIndex + 2 })
    | _, _ => (.error .protocolError, state)
  | _ =>
    if type.payloadTypeFor then readPayload allocator reply type argument.address state
    else
      match reply.words[state.wordIndex]? with
      | some word =>
        (.ok (), { state.store argument.address (wordBytes type word) with
          wordIndex := state.wordIndex + 1 })
      | none => (.error .protocolError, state)

/-- `release_decoded_outputs` over the outputs that were assigned. -/
def releaseDecodedOutputs (assigned : List Argument) (heap : Heap) : Heap :=
  assigned.foldl
    (fun heap argument =>
      if argument.param.type.payloadTypeFor then
        (codecReleaseValue argument.param.type.kindFor argument.param.type.typeMeta
          argument.address ⟨heap, 0⟩).heap
      else heap) heap

/-- The second loop of `libfacet_proxy_client_call`. -/
def assignOutputs (reply : LocalMessage) :
    List Argument → List Argument → ReadState → Except FacetError Unit × Heap
  | [], _, state => (.ok (), state.heap)
  | argument :: rest, assigned, state =>
    if argument.param.direction = .input then
      assignOutputs reply rest assigned state
    else
      match assignOutput allocator reply argument state with
      | (.ok (), state) =>
        assignOutputs reply rest (assigned ++ [argument]) state
      | (.error failure, state) =>
        (.error failure, releaseDecodedOutputs assigned state.heap)

/-- `FacetResult` of a call: the code 0 is `FACET_OK`. -/
abbrev FacetResult := Int32

/-- The result of a call after the second loop: every failure to assign an output
is a protocol error. -/
def assignmentResult : Except FacetError Unit × Heap → FacetResult × Heap
  | (.ok (), client) => (0, client)
  | (.error _, client) => (FacetError.protocolError.code, client)

/-- `libfacet_proxy_client_call` over a transport. -/
def libfacetProxyClientCall
    (platformCall : LocalMessage → FacetResult × LocalMessage) (methodId : UInt32)
    (arguments : List Argument) (client : Heap) : FacetResult × Heap :=
  match marshalArguments client.memory arguments 0 .empty with
  | .error failure => (failure.code, client)
  | .ok builder =>
    let (result, reply) := platformCall (builder.message methodId)
    if result ≠ 0 then (result, client)
    else
      match reply.words with
      | [] => (FacetError.protocolError.code, client)
      | word :: _ =>
        let result := word.toUInt32.toInt32
        if result ≠ 0 then (result, client)
        else
          assignmentResult (assignOutputs allocator reply arguments [] ⟨client, 1, 0, 0⟩)

end FacetOS.Rpc
