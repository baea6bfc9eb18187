import FacetOS.Rpc.Proxy

/-!
# Server stubs

The code that `emit_server_method` writes for a method: it binds one local
variable to each parameter, calls the implementation and builds the reply.  The
stub runs in the server's heap; the arguments given here are its local variables.
The implementation is an arbitrary change of that heap with a result code.
-/

namespace FacetOS.Rpc

open LittleEndian ByteMemory

/-- An implementation of a method. -/
abbrev Implementation := Heap → FacetResult × Heap

/-- Words of a message that a parameter of the type takes. -/
def IdlType.wordCount : IdlType → ℕ
  | .handle => 0
  | .uuid => 2
  | type => if type.payloadTypeFor then 0 else 1

/-- The word count that the stub expects of a request. -/
def inputWords : List Argument → ℕ
  | [] => 0
  | argument :: rest =>
    (if argument.param.direction = .output then 0 else argument.param.type.wordCount) +
      inputWords rest

variable (allocator : Allocator)

/-- The declaration of one local variable.  Words are read from the array of the
request, whose length has been checked before. -/
def bindParameter (request : LocalMessage) (argument : Argument)
    (state : ReadState) : Outcome ReadState :=
  let type := argument.param.type
  let zeroed := state.store argument.address (List.replicate type.cSize 0)
  if argument.param.direction = .output then (.ok (), zeroed)
  else
    match type with
    | .handle => readHandle request argument.address zeroed
    | .uuid =>
      (.ok (), { state.store argument.address
          (leBytes 8 (request.words.getD state.wordIndex 0).toNat ++
            leBytes 8 (request.words.getD (state.wordIndex + 1) 0).toNat) with
        wordIndex := state.wordIndex + 2 })
    | _ =>
      if type.payloadTypeFor then
        readPayload allocator request type argument.address zeroed
      else
        (.ok (), { state.store argument.address
            (wordBytes type (request.words.getD state.wordIndex 0)) with
          wordIndex := state.wordIndex + 1 })

def bindParameters (request : LocalMessage) : List Argument → ReadState → Outcome ReadState
  | [], state => (.ok (), state)
  | argument :: rest, state =>
    Outcome.andThen (bindParameter allocator request argument state)
      (bindParameters request rest)

/-! ## Building the reply -/

/-- `(uint64_t)` of a scalar output. -/
def replyWord (memory : Memory) (param : FacetIdlParam) (address : ℕ) : ℕ :=
  match param.type with
  | .int kind => (scalarWord memory address kind.facetType).getD 0
  | .bool => if cBool memory address then 1 else 0
  | .enum _ _ =>
    if param.signedEnum then signExtend 4 (loadNat memory address 4)
    else loadNat memory address 4
  | _ => loadNat memory address 8

/-- The part of the stub that adds one output to the reply. -/
def appendOutput (memory : Memory) (argument : Argument) (builder : MessageBuilder) :
    Except FacetError MessageBuilder :=
  let type := argument.param.type
  match type with
  | .handle =>
    if builder.handles.length ≥ rpcMaxAttachments then .error .bufferTooSmall
    else .ok { builder with handles := builder.handles ++ [loadNat memory argument.address 8] }
  | .uuid =>
    if builder.words.length > rpcMaxWords - 2 then .error .bufferTooSmall
    else
      .ok { builder with words := builder.words ++
        [UInt64.ofNat (loadNat memory argument.address 8),
          UInt64.ofNat (loadNat memory (argument.address + 8) 8)] }
  | _ =>
    if type.payloadTypeFor then
      (encodePayload memory type argument.address builder).mapError fun _ => .protocolError
    else
      .ok { builder with words := builder.words ++
        [UInt64.ofNat (replyWord memory argument.param argument.address)] }

/-- Add all outputs.  On failure the reply keeps what it had. -/
def appendOutputs (memory : Memory) :
    List Argument → MessageBuilder → Except FacetError Unit × MessageBuilder
  | [], builder => (.ok (), builder)
  | argument :: rest, builder =>
    if argument.param.direction = .input then appendOutputs memory rest builder
    else
      match appendOutput memory argument builder with
      | .ok builder => appendOutputs memory rest builder
      | .error failure => (.error failure, builder)

/-- The `facet_rpc_release_value` calls at the end of the stub. -/
def releaseInputs (locals : List Argument) (heap : Heap) : Heap :=
  locals.foldl
    (fun heap argument =>
      if argument.param.direction ≠ .output ∧ argument.param.type.payloadTypeFor then
        (codecReleaseValue argument.param.type.kindFor argument.param.type.typeMeta
          argument.address ⟨heap, 0⟩).heap
      else heap) heap

/-- What the stub returns to the dispatcher. -/
structure StubResult where
  result : FacetResult
  reply : MessageBuilder
  heap : Heap

/-- The heap with which the stub calls the implementation, if it gets that far. -/
def calledWith (locals : List Argument) (request : LocalMessage) (server : Heap) : Option Heap :=
  if request.words.length ≠ inputWords locals then none
  else
    match bindParameters allocator request locals ⟨server, 0, 0, 0⟩ with
    | (.error _, _) => none
    | (.ok (), state) => some state.heap

/-- The stub of a method. -/
def serverMethod (implementation : Implementation)
    (locals : List Argument) (request : LocalMessage) (server : Heap) : StubResult :=
  if request.words.length ≠ inputWords locals then
    ⟨FacetError.protocolError.code, .empty, server⟩
  else
    match bindParameters allocator request locals ⟨server, 0, 0, 0⟩ with
    | (.error _, state) => ⟨FacetError.protocolError.code, .empty, state.heap⟩
    | (.ok (), state) =>
      let (result, heap) := implementation state.heap
      match appendOutputs heap.memory locals ⟨[resultWord result], [], none⟩ with
      | (.ok (), reply) => ⟨0, reply, releaseInputs locals heap⟩
      | (.error failure, reply) => ⟨failure.code, reply, heap⟩

/-- The reply that leaves the dispatcher: a stub that has set no words is answered
for with its result code. -/
def dispatchReply (stub : StubResult) : LocalMessage :=
  { stub.reply with
    words := if stub.reply.words = [] then [resultWord stub.result] else stub.reply.words
    : MessageBuilder }.message 0

end FacetOS.Rpc
