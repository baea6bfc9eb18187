import FacetOS.Rpc.RoundTrip
import FacetOS.Rpc.Stub

/-!
# How parameters travel

Every parameter puts a chunk into a message: some words, handles and payload
bytes.  `IdlType.Carried` says which value of a type a chunk stands for.  The three
writers (the two of the proxy and that of the stub) append such chunks, and the two
readers take them back.  Nothing but this relation connects the two sides.
-/

namespace FacetOS.Rpc

open LittleEndian ByteMemory
open Passes (ite_error_eq_ok)

/-- What one or more parameters contribute to a message. -/
structure Chunk where
  words : List UInt64
  handles : List ℕ
  bytes : List UInt8

def Chunk.empty : Chunk :=
  ⟨[], [], []⟩

def Chunk.append (left right : Chunk) : Chunk :=
  ⟨left.words ++ right.words, left.handles ++ right.handles, left.bytes ++ right.bytes⟩

instance : Append Chunk :=
  ⟨Chunk.append⟩

section Append

variable (left right third : Chunk)

@[simp]
theorem Chunk.words_append : (left ++ right).words = left.words ++ right.words := rfl

@[simp]
theorem Chunk.handles_append : (left ++ right).handles = left.handles ++ right.handles := rfl

@[simp]
theorem Chunk.bytes_append : (left ++ right).bytes = left.bytes ++ right.bytes := rfl

theorem Chunk.append_assoc : left ++ right ++ third = left ++ (right ++ third) := by
  show Chunk.mk _ _ _ = Chunk.mk _ _ _
  simp [List.append_assoc]

theorem Chunk.append_empty : left ++ Chunk.empty = left := by
  show Chunk.mk _ _ _ = left
  simp [Chunk.empty]

end Append

/-- The contents of a message under construction. -/
def MessageBuilder.chunk (builder : MessageBuilder) : Chunk :=
  ⟨builder.words, builder.handles, builder.payload⟩

/-- The value that a word stands for. -/
def wordValue (type : IdlType) (word : UInt64) : Value :=
  match type with
  | .bool => .bool (word ≠ 0)
  | type => .raw (wordBytes type word)

/-- The chunk stands for the value. -/
def IdlType.Carried (type : IdlType) (value : Value) (chunk : Chunk) : Prop :=
  match type with
  | .handle => ∃ handle, chunk = ⟨[], [handle], []⟩ ∧ value = .raw (leBytes 8 handle)
  | .uuid => ∃ low high : UInt64, chunk = ⟨[low, high], [], []⟩ ∧
      value = .raw (leBytes 8 low.toNat ++ leBytes 8 high.toNat)
  | type =>
    if type.payloadTypeFor then
      chunk = ⟨[], [], value.wire⟩ ∧ Spells Counted type.kindFor type.typeMeta value.word
    else ∃ word, chunk = ⟨[word], [], []⟩ ∧ value = wordValue type word

variable {type : IdlType} {value : Value} {chunk : Chunk}

theorem IdlType.carried_payload (hpayload : type.payloadTypeFor = true) :
    type.Carried value chunk ↔
      chunk = ⟨[], [], value.wire⟩ ∧ Spells Counted type.kindFor type.typeMeta value.word := by
  cases type <;> simp_all [IdlType.Carried, IdlType.payloadTypeFor]

/-- The types that travel as one word. -/
def IdlType.isWord : IdlType → Bool
  | .int _ | .bool | .localPtr => true
  | .enum _ imported => !imported
  | .uuid | .handle | .string | .array _ | .struct _ _ => false

theorem IdlType.payloadTypeFor_of_isWord (hword : type.isWord = true) :
    type.payloadTypeFor = false := by
  cases type <;> simp_all [isWord, payloadTypeFor]

/-- The four ways in which a parameter is passed. -/
theorem IdlType.passing_cases (type : IdlType) :
    type = .handle ∨ type = .uuid ∨ type.payloadTypeFor = true ∨ type.isWord = true := by
  cases type <;> simp [payloadTypeFor, isWord]

theorem IdlType.carried_word (hword : type.isWord = true) :
    type.Carried value chunk ↔ ∃ word, chunk = ⟨[word], [], []⟩ ∧ value = wordValue type word := by
  cases type <;> simp_all [IdlType.Carried, IdlType.payloadTypeFor, IdlType.isWord]

theorem IdlType.wordCount_of_payload (hpayload : type.payloadTypeFor = true) :
    type.wordCount = 0 := by
  cases type
  case handle => cases hpayload
  case uuid => cases hpayload
  all_goals simp [IdlType.wordCount, hpayload]

theorem IdlType.wordCount_of_isWord (hword : type.isWord = true) :
    type.wordCount = 1 := by
  have hpayload := type.payloadTypeFor_of_isWord hword
  cases type
  case handle => cases hword
  case uuid => cases hword
  all_goals simp [IdlType.wordCount, hpayload]

theorem IdlType.Carried.length_words (hcarried : type.Carried value chunk) :
    chunk.words.length = type.wordCount := by
  rcases type.passing_cases with rfl | rfl | hpayload | hword
  · obtain ⟨handle, rfl, -⟩ := hcarried
    rfl
  · obtain ⟨low, high, rfl, -⟩ := hcarried
    rfl
  · obtain ⟨rfl, -⟩ := (type.carried_payload hpayload).mp hcarried
    exact (type.wordCount_of_payload hpayload).symm
  · obtain ⟨word, rfl, -⟩ := (type.carried_word hword).mp hcarried
    exact (type.wordCount_of_isWord hword).symm

theorem IdlType.Carried.placed {limit : ℕ} (hcarried : type.Carried value chunk)
    (hinside : type.payloadTypeFor = true →
      Spells Counted type.kindFor type.typeMeta value.word →
      Placed objectSize type.kindFor type.typeMeta limit value.word)
    (hpayload : type.payloadTypeFor = true) :
    Placed objectSize type.kindFor type.typeMeta limit value.word :=
  hinside hpayload ((type.carried_payload hpayload).mp hcarried).2

/-- The value of an object as the writers see it: inside a payload it is read by the
codec, with the type's description. -/
def IdlType.sent (type : IdlType) (memory : Memory) (address : ℕ) : Value :=
  if type.payloadTypeFor then loadValue intBool memory type.kindFor type.typeMeta address
  else type.load memory address

/-- The object has received the value: a payload value as the decoder leaves it. -/
def IdlType.Received (type : IdlType) (value : Value) (address : ℕ) (memory : Memory) : Prop :=
  if type.payloadTypeFor then type.Holds value.word address memory
  else type.load memory address = value

theorem IdlType.received_word (hpayload : type.payloadTypeFor = false) {address : ℕ}
    {memory : Memory} (hload : type.load memory address = value) :
    type.Received value address memory := by
  rwa [IdlType.Received, hpayload]

/-- A writer has appended a chunk for the value of an object. -/
def IdlType.Adds (type : IdlType) (memory : Memory) (address : ℕ)
    (builder result : MessageBuilder) : Prop :=
  ∃ chunk, type.Carried (type.sent memory address) chunk ∧ result.chunk = builder.chunk ++ chunk

/-! ## Writers -/

variable {word : ℕ} {property : Memory → Prop} {argument : Argument}

section Writers

variable {memory : Memory} {address : ℕ} {builder result : MessageBuilder}

theorem leBytes_word {width : ℕ} (hwidth : width ≤ 8) (word : ℕ) :
    leBytes width (UInt64.ofNat word).toNat = leBytes width word := by
  have hmod : (UInt64.ofNat word).toNat = word % 256 ^ 8 := by
    rw [UInt64.toNat_ofNat']
    norm_num
  rw [hmod, leBytes_mod_of_le hwidth]

theorem MessageBuilder.chunk_words (words : List UInt64) :
    { builder with words := builder.words ++ words }.chunk = builder.chunk ++ ⟨words, [], []⟩ := by
  show Chunk.mk _ _ _ = Chunk.mk _ _ _
  simp [MessageBuilder.chunk, MessageBuilder.payload]

theorem MessageBuilder.chunk_handles (handles : List ℕ) :
    { builder with handles := builder.handles ++ handles }.chunk
      = builder.chunk ++ ⟨[], handles, []⟩ := by
  show Chunk.mk _ _ _ = Chunk.mk _ _ _
  simp [MessageBuilder.chunk, MessageBuilder.payload]

theorem appendWord_chunk (hok : appendWord builder word = some result) :
    result.chunk = builder.chunk ++ ⟨[UInt64.ofNat word], [], []⟩ := by
  obtain ⟨-, hsome⟩ := Option.ite_none_left_eq_some.mp hok
  cases hsome
  exact MessageBuilder.chunk_words _

theorem appendHandle_chunk {handle : ℕ} (hok : appendHandle builder handle = some result) :
    result.chunk = builder.chunk ++ ⟨[], [handle], []⟩ := by
  obtain ⟨-, hsome⟩ := Option.ite_none_left_eq_some.mp hok
  cases hsome
  exact MessageBuilder.chunk_handles _

theorem appendUuid_chunk (hok : appendUuid memory address builder = some result) :
    result.chunk = builder.chunk ++ ⟨[UInt64.ofNat (loadNat memory address 8),
      UInt64.ofNat (loadNat memory (address + 8) 8)], [], []⟩ := by
  obtain ⟨middle, hfirst, hlast⟩ := Option.bind_eq_some_iff.mp hok
  rw [appendWord_chunk hlast, appendWord_chunk hfirst, Chunk.append_assoc]
  rfl

theorem adds_of_encodePayload (hpayload : type.payloadTypeFor = true)
    (hok : encodePayload memory type address builder = .ok result) :
    type.Adds memory address builder result := by
  unfold encodePayload at hok
  cases hencode : encodeValue memory type.kindFor type.typeMeta address
      (builder.codec.getD ⟨[], 256⟩) with
  | error failure =>
    rw [hencode] at hok
    cases hok
  | ok codec =>
    rw [hencode] at hok
    cases hok
    obtain ⟨hspells, hnull⟩ := (encodeValue_fits memory).1 _ _ _ _ _ hencode
    have hdata := ((encodeValue_appends memory).1 _ _ _ hspells hnull _).written codec hencode
    have hbefore : (builder.codec.getD ⟨[], 256⟩).data = builder.payload := by
      unfold MessageBuilder.payload
      cases builder.codec <;> rfl
    refine ⟨_, (type.carried_payload hpayload).mpr ⟨rfl, ?_⟩, ?_⟩
    · rwa [IdlType.sent, if_pos hpayload]
    · rw [IdlType.sent, if_pos hpayload]
      show Chunk.mk _ _ _ = Chunk.mk _ _ _
      simp [MessageBuilder.chunk, MessageBuilder.payload, hdata, hbefore]

/-- A uuid as two words. -/
theorem uuid_bytes (memory : Memory) (address : ℕ) :
    leBytes 8 (UInt64.ofNat (loadNat memory address 8)).toNat ++
        leBytes 8 (UInt64.ofNat (loadNat memory (address + 8) 8)).toNat =
      load memory address 16 := by
  rw [leBytes_word le_rfl, leBytes_word le_rfl, leBytes_loadNat, leBytes_loadNat]
  simp [load, List.range_succ]

theorem wordValue_bool (memory : Memory) (address : ℕ) :
    wordValue .bool (UInt64.ofNat (if cBool memory address then 1 else 0)) =
      IdlType.bool.load memory address := by
  rw [IdlType.load]
  cases cBool memory address <;> rfl

theorem wordValue_int {kind : IntKind}
    (hword : scalarWord memory address kind.facetType = some word) :
    wordValue (.int kind) (UInt64.ofNat word) =
      (IdlType.int kind).load memory address := by
  obtain ⟨other, hother, hbytes⟩ := scalarWord_int memory address kind
  rw [hother] at hword
  cases hword
  have hwidth : kind.width ≤ 8 := by
    cases kind <;> decide
  rw [wordValue, wordBytes, leBytes_word hwidth, hbytes, IdlType.load]
  simp

theorem wordValue_enum {underlying : IntKind} {imported : Bool}
    (hword : leBytes 4 word = leBytes 4 (loadNat memory address 4)) :
    wordValue (.enum underlying imported) (UInt64.ofNat word) =
      (IdlType.enum underlying imported).load memory address := by
  rw [wordValue, wordBytes, leBytes_word (by decide), hword, leBytes_loadNat, IdlType.load]
  simp

theorem wordValue_localPtr (memory : Memory) (address : ℕ) :
    wordValue .localPtr (UInt64.ofNat (loadNat memory address 8)) =
      IdlType.localPtr.load memory address := by
  simp only [wordValue, wordBytes]
  rw [leBytes_word le_rfl, leBytes_loadNat, IdlType.load]

theorem carried_word_sent {word : UInt64} (htype : type.isWord = true)
    (hvalue : wordValue type word = type.load memory address) :
    type.Carried (type.sent memory address) ⟨[word], [], []⟩ := by
  refine (type.carried_word htype).mpr ⟨_, rfl, ?_⟩
  rw [hvalue, IdlType.sent, type.payloadTypeFor_of_isWord htype]
  rfl

theorem adds_of_appendWord (htype : type.isWord = true)
    (hvalue : wordValue type (UInt64.ofNat word) = type.load memory address)
    (hok : appendWord builder word = some result) :
    type.Adds memory address builder result :=
  ⟨_, carried_word_sent htype hvalue, appendWord_chunk hok⟩

theorem eq_ok_of_toOption {Failure Result : Type} {outcome : Except Failure Result}
    {result : Result} (hsome : outcome.toOption = some result) : outcome = .ok result := by
  cases outcome <;> cases hsome
  rfl

theorem carried_uuid (memory : Memory) (address : ℕ) :
    IdlType.uuid.Carried (IdlType.uuid.sent memory address)
      ⟨[UInt64.ofNat (loadNat memory address 8),
        UInt64.ofNat (loadNat memory (address + 8) 8)], [], []⟩ := by
  refine ⟨_, _, rfl, ?_⟩
  rw [uuid_bytes]
  rfl

theorem carried_handle (memory : Memory) (address : ℕ) :
    IdlType.handle.Carried (IdlType.handle.sent memory address)
      ⟨[], [loadNat memory address 8], []⟩ := by
  refine ⟨_, rfl, ?_⟩
  rw [leBytes_loadNat]
  rfl

/-- The common part of the two writers of the proxy. -/
theorem appendParameter_adds {enumWord : ℕ → ℕ} {pointerWord : Option ℕ}
    (henum : leBytes 4 (enumWord (loadNat memory address 4)) =
      leBytes 4 (loadNat memory address 4))
    (hpointer : ∀ word, pointerWord = some word → word = loadNat memory address 8)
    (hok : appendParameter enumWord pointerWord memory type address builder = some result) :
    type.Adds memory address builder result := by
  cases type with
  | handle => exact ⟨_, carried_handle memory address, appendHandle_chunk hok⟩
  | uuid => exact ⟨_, carried_uuid memory address, appendUuid_chunk hok⟩
  | int kind =>
    obtain ⟨word, hword, happend⟩ := Option.bind_eq_some_iff.mp hok
    exact adds_of_appendWord rfl (wordValue_int hword) happend
  | bool => exact adds_of_appendWord rfl (wordValue_bool memory address) hok
  | localPtr =>
    obtain ⟨word, hword, happend⟩ := Option.bind_eq_some_iff.mp hok
    rw [hpointer word hword] at happend
    exact adds_of_appendWord rfl (wordValue_localPtr memory address) happend
  | enum underlying imported =>
    cases imported with
    | true =>
      exact adds_of_encodePayload rfl (eq_ok_of_toOption hok)
    | false => exact adds_of_appendWord rfl (wordValue_enum henum) hok
  | string | array _ | struct _ _ =>
    exact adds_of_encodePayload rfl (eq_ok_of_toOption hok)

theorem appendInput_adds (hok : appendInput memory type address builder = some result) :
    type.Adds memory address builder result := by
  unfold appendInput at hok
  apply appendParameter_adds _ _ hok
  · rfl
  · simp

theorem appendInputValue_adds (hok : appendInputValue memory type address builder = some result) :
    type.Adds memory address builder result :=
  appendParameter_adds (leBytes_signExtend (by decide)) (by simp) hok

theorem wordValue_replyWord (memory : Memory) {param : FacetIdlParam} (address : ℕ)
    (hword : param.type.isWord = true) :
    wordValue param.type (UInt64.ofNat (replyWord memory param address)) =
      param.type.load memory address := by
  obtain ⟨direction, type, signedEnum⟩ := param
  cases type with
  | int kind =>
    obtain ⟨word, hscalar, -⟩ := scalarWord_int memory address kind
    simp only [replyWord, hscalar, Option.getD_some]
    exact wordValue_int hscalar
  | bool => exact wordValue_bool memory address
  | localPtr => exact wordValue_localPtr memory address
  | enum underlying imported =>
    apply wordValue_enum
    simp only [replyWord]
    split
    · exact leBytes_signExtend (by decide)
    · rfl
  | _ => cases hword

theorem appendOutput_handle (hhandle : argument.param.type = .handle) :
    appendOutput memory argument builder =
      if builder.handles.length ≥ rpcMaxAttachments then .error .bufferTooSmall
      else
        .ok { builder with
          handles := builder.handles ++ [loadNat memory argument.address 8] } := by
  simp only [appendOutput, hhandle]

theorem appendOutput_uuid (huuid : argument.param.type = .uuid) :
    appendOutput memory argument builder =
      if builder.words.length > rpcMaxWords - 2 then .error .bufferTooSmall
      else
        .ok { builder with words := builder.words ++
          [UInt64.ofNat (loadNat memory argument.address 8),
            UInt64.ofNat (loadNat memory (argument.address + 8) 8)] } := by
  simp only [appendOutput, huuid]

theorem appendOutput_payload (hpayload : argument.param.type.payloadTypeFor = true) :
    appendOutput memory argument builder =
      (encodePayload memory argument.param.type argument.address builder).mapError
        fun _ => .protocolError := by
  obtain ⟨⟨direction, type, signedEnum⟩, address⟩ := argument
  cases type <;> simp_all [appendOutput, IdlType.payloadTypeFor]

theorem appendOutput_word (hword : argument.param.type.isWord = true) :
    appendOutput memory argument builder =
      .ok { builder with words := builder.words ++
        [UInt64.ofNat (replyWord memory argument.param argument.address)] } := by
  obtain ⟨⟨direction, type, signedEnum⟩, address⟩ := argument
  cases type <;> simp_all [appendOutput, IdlType.payloadTypeFor, IdlType.isWord]

/-- The writer of the stub. -/
theorem appendOutput_adds (hok : appendOutput memory argument builder = .ok result) :
    argument.param.type.Adds memory argument.address builder result := by
  rcases argument.param.type.passing_cases with hhandle | huuid | hpayload | hword
  · rw [appendOutput_handle hhandle] at hok
    rw [hhandle]
    cases (ite_error_eq_ok.mp hok).2
    exact ⟨_, carried_handle memory argument.address, MessageBuilder.chunk_handles _⟩
  · rw [appendOutput_uuid huuid] at hok
    rw [huuid]
    cases (ite_error_eq_ok.mp hok).2
    exact ⟨_, carried_uuid memory argument.address, MessageBuilder.chunk_words _⟩
  · rw [appendOutput_payload hpayload] at hok
    cases hcase : encodePayload memory argument.param.type argument.address builder with
    | error failure =>
      rw [hcase] at hok
      cases hok
    | ok other =>
      rw [hcase] at hok
      cases hok
      exact adds_of_encodePayload hpayload hcase
  · rw [appendOutput_word hword] at hok
    cases hok
    exact ⟨_, carried_word_sent hword (wordValue_replyWord memory argument.address hword),
      MessageBuilder.chunk_words _⟩

end Writers

/-! ## Readers -/

/-- The state has read the chunk at the start of a message. -/
def ReadState.At (state : ReadState) (chunk : Chunk) : Prop :=
  state.wordIndex = chunk.words.length ∧ state.handleIndex = chunk.handles.length ∧
    state.offset = chunk.bytes.length

/-- A message consists of the contents of a chunk. -/
structure FacetRpcMessage.Consists (message : LocalMessage) (chunk : Chunk) : Prop where
  words : message.words = chunk.words
  attachments : message.attachments = chunk.handles.map fun handle => ⟨.handle, handle, 0⟩
  payload : message.payloadBytes = chunk.bytes

theorem FacetRpcMessage.Consists.split {message : LocalMessage} {before first later after : Chunk}
    (hmessage : message.Consists (before ++ (first ++ later) ++ after)) :
    message.Consists (before ++ first ++ (later ++ after)) ∧
      message.Consists (before ++ first ++ later ++ after) := by
  simpa only [Chunk.append_assoc, and_self] using hmessage

theorem MessageBuilder.message_consists (builder : MessageBuilder) (methodId : UInt32) :
    (builder.message methodId).Consists builder.chunk where
  words := rfl
  attachments := rfl
  payload := by
    simp only [FacetRpcMessage.payloadBytes, MessageBuilder.message, MessageBuilder.chunk]
    rw [← MessageBuilder.payload, List.take_length]

/-- A reader reports that memory ran out, or it has read up to the chunk and filled
the target. -/
def Reads (result : Outcome ReadState) (state : ReadState) (position : Chunk)
    (target : Block) (property : Memory → Prop) : Prop :=
  result.1 = .error .outOfMemory ∨
    result.1 = .ok () ∧ result.2.At position ∧
      Filled target state.heap result.2.heap property

theorem Reads.imp {result : Outcome ReadState} {state : ReadState} {position : Chunk}
    {target : Block} {weaker : Memory → Prop}
    (hreads : Reads result state position target property)
    (himp : ∀ memory, property memory → weaker memory) :
    Reads result state position target weaker := by
  rcases hreads with hmemory | ⟨hok, hat, hfilled⟩
  · exact .inl hmemory
  · exact .inr ⟨hok, hat, hfilled.imp himp⟩

section Readers

variable {allocator : Allocator} {message : LocalMessage} {state : ReadState}
  {before after : Chunk} {address : ℕ}

theorem length_wordBytes (hword : type.isWord = true) (word : UInt64) :
    (wordBytes type word).length = type.cSize := by
  cases type
  case bool => rfl
  case int kind => exact length_leBytes _ _
  case enum underlying imported => exact length_leBytes _ _
  case localPtr => exact length_leBytes _ _
  all_goals cases hword

/-- An object that holds the bytes of a word has the value of the word. -/
theorem load_of_wordBytes (hword : type.isWord = true) {memory : Memory} {word : UInt64}
    (hload : load memory address type.cSize = wordBytes type word) :
    type.load memory address = wordValue type word := by
  cases type
  case bool =>
      have hbyte : loadNat memory address 1 = leValue [if word ≠ 0 then 1 else 0] :=
        congrArg leValue hload
      rw [IdlType.load, cBool, hbyte, wordValue]
      by_cases hzero : word = 0 <;> simp [hzero]
  case int kind => exact congrArg Value.raw hload
  case enum underlying imported => exact congrArg Value.raw hload
  case localPtr => exact congrArg Value.raw hload
  all_goals cases hword

/-- A chunk whose object has been stored is read. -/
theorem reads_store {bytes : List UInt8} {size : ℕ} {next : ReadState}
    (hat : state.At before) (hlength : bytes.length = size)
    (hnext : next = ⟨(state.store address bytes).heap, state.wordIndex + chunk.words.length,
      state.handleIndex + chunk.handles.length, state.offset + chunk.bytes.length⟩)
    (hload : ∀ memory, load memory address size = bytes → property memory) :
    Reads (.ok (), next) state (before ++ chunk) ⟨address, size⟩ property := by
  obtain ⟨hwords, hhandles, hoffset⟩ := hat
  subst hlength hnext
  refine .inr ⟨rfl, ?_, (Filled.of_store state.heap address bytes).imp hload⟩
  simp [ReadState.At, hwords, hhandles, hoffset]

/-- Zeroing the target first makes no difference to a reader. -/
theorem Reads.of_zeroed {result : Outcome ReadState} {position : Chunk} {size : ℕ}
    (hreads : Reads result (state.store address (List.replicate size 0)) position
      ⟨address, size⟩ property) :
    Reads result state position ⟨address, size⟩ property := by
  have hzeroed := Filled.of_store state.heap address (List.replicate size 0)
  rw [List.length_replicate] at hzeroed
  rcases hreads with hmemory | ⟨hok, hat, hfilled⟩
  · exact .inl hmemory
  · exact .inr ⟨hok, hat, hzeroed.overwrite hfilled⟩

variable {request reply : LocalMessage}

theorem assignOutput_payload (hpayload : argument.param.type.payloadTypeFor = true) :
    assignOutput allocator reply argument state =
      readPayload allocator reply argument.param.type argument.address state := by
  obtain ⟨⟨direction, type, signedEnum⟩, address⟩ := argument
  cases type <;> simp_all [assignOutput, IdlType.payloadTypeFor]

theorem assignOutput_word {word : UInt64}
    (hword : argument.param.type.isWord = true)
    (hentry : reply.words[state.wordIndex]? = some word) :
    assignOutput allocator reply argument state =
      (.ok (), { state.store argument.address (wordBytes argument.param.type word) with
        wordIndex := state.wordIndex + 1 }) := by
  obtain ⟨⟨direction, type, signedEnum⟩, address⟩ := argument
  cases type <;> simp_all [assignOutput, IdlType.payloadTypeFor, IdlType.isWord]

/-- Where its words are there, the stub reads as the proxy does, if not into a zeroed target. -/
theorem bindParameter_eq (allocator : Allocator) (hdirection : argument.param.direction ≠ .output)
    (hwords : state.wordIndex + argument.param.type.wordCount ≤ request.words.length) :
    ∃ start, (start = state ∨
        start = state.store argument.address (List.replicate argument.param.type.cSize 0)) ∧
      bindParameter allocator request argument state =
        assignOutput allocator request argument start := by
  obtain ⟨⟨direction, type, signedEnum⟩, address⟩ := argument
  rcases type.passing_cases with rfl | rfl | hpayload | hword
  · exact ⟨_, .inr rfl, if_neg hdirection⟩
  · have hhigh : state.wordIndex + 1 < request.words.length := hwords
    have hlow : state.wordIndex < request.words.length := by omega
    refine ⟨_, .inl rfl, ?_⟩
    simp [bindParameter, assignOutput, hdirection, hlow, hhigh]
  · refine ⟨_, .inr rfl, ?_⟩
    cases type <;> simp_all [bindParameter, assignOutput, IdlType.payloadTypeFor]
  · rw [IdlType.wordCount_of_isWord hword] at hwords
    refine ⟨_, .inl rfl, ?_⟩
    cases type <;> simp_all [bindParameter, assignOutput, IdlType.payloadTypeFor, IdlType.isWord]

section Consists

variable (hmessage : message.Consists (before ++ chunk ++ after)) (hat : state.At before)
include hmessage hat

theorem readHandle_reads (hcarried : IdlType.handle.Carried value chunk) :
    Reads (readHandle message address state) state (before ++ chunk) ⟨address, 8⟩
      (IdlType.handle.Received value address) := by
  obtain ⟨handle, rfl, rfl⟩ := hcarried
  have hentry : message.attachments[state.handleIndex]? =
      some ⟨.handle, handle, 0⟩ := by
    rw [hmessage.attachments, hat.2.1]
    simp
  rw [readHandle, hentry]
  exact reads_store hat (length_leBytes _ _) rfl fun _ hload => congrArg Value.raw hload

theorem readPayload_reads (hpayload : type.payloadTypeFor = true)
    (hcarried : type.Carried value chunk)
    (hplaced : Placed objectSize type.kindFor type.typeMeta type.cSize value.word)
    (howned : Owned ⟨address, type.cSize⟩ state.heap.live) :
    Reads (readPayload allocator message type address state) state (before ++ chunk)
      ⟨address, type.cSize⟩ (type.Received value address) := by
  obtain ⟨rfl, hspells⟩ := (type.carried_payload hpayload).mp hcarried
  obtain ⟨hwords, hhandles, hoffset⟩ := hat
  have hcarries : Carries message.payloadBytes state.offset value.word.bytes :=
    ⟨before.bytes, after.bytes, by rw [value.bytes_word]; exact hmessage.payload, hoffset⟩
  have hsize : objectSize type.kindFor type.typeMeta = type.cSize := by
    cases type with
    | enum underlying imported =>
      cases hpayload
      rfl
    | string | array _ | struct _ _ => rfl
    | _ => cases hpayload
  rcases decodes_placed allocator type ⟨state.heap, state.offset⟩ hspells hplaced hcarries howned
    with hmemory | ⟨hok, hend, hkeeps⟩
  · exact .inl hmemory
  · rw [hsize] at hkeeps
    refine .inr ⟨hok, ?_, hkeeps.imp fun memory hholds => ?_⟩
    · rw [hoffset, value.bytes_word] at hend
      simp [ReadState.At, readPayload, hwords, hhandles, hend, hoffset]
    · rwa [IdlType.Received, if_pos hpayload]

variable (hcarried : argument.param.type.Carried value chunk)
  (hplaced : argument.param.type.payloadTypeFor = true → Placed objectSize
    argument.param.type.kindFor argument.param.type.typeMeta argument.param.type.cSize value.word)
  (howned : Owned argument.block state.heap.live)
include hcarried hplaced howned

/-- The reader of the proxy. -/
theorem assignOutput_reads :
    Reads (assignOutput allocator message argument state) state (before ++ chunk)
      argument.block (argument.param.type.Received value argument.address) := by
  rcases argument.param.type.passing_cases with hhandle | huuid | hpayload | hword
  · obtain ⟨⟨direction, type, signedEnum⟩, address⟩ := argument
    cases hhandle
    exact readHandle_reads hmessage hat hcarried
  · obtain ⟨⟨direction, type, signedEnum⟩, address⟩ := argument
    cases huuid
    obtain ⟨low, high, rfl, rfl⟩ := hcarried
    have hlow : message.words[state.wordIndex]? = some low := by simp [hat.1, hmessage.words]
    have hhigh : message.words[state.wordIndex + 1]? = some high := by
      simp [hat.1, hmessage.words]
    simp only [assignOutput, hlow, hhigh]
    exact reads_store hat rfl rfl fun _ hload => congrArg Value.raw hload
  · rw [assignOutput_payload hpayload]
    exact readPayload_reads hmessage hat hpayload hcarried (hplaced hpayload) howned
  · obtain ⟨word, rfl, rfl⟩ := (IdlType.carried_word hword).mp hcarried
    have hentry : message.words[state.wordIndex]? = some word := by
      simp [hat.1, hmessage.words]
    rw [assignOutput_word hword hentry]
    exact reads_store hat (length_wordBytes hword word) rfl fun _ hload =>
      IdlType.received_word (IdlType.payloadTypeFor_of_isWord hword) (load_of_wordBytes hword hload)

/-- The reader of the stub. -/
theorem bindParameter_reads (hdirection : argument.param.direction ≠ .output) :
    Reads (bindParameter allocator message argument state) state (before ++ chunk)
      argument.block (argument.param.type.Received value argument.address) := by
  have hwords : state.wordIndex + argument.param.type.wordCount ≤ message.words.length := by
    rw [hat.1, ← hcarried.length_words, hmessage.words]
    simp
  obtain ⟨start, rfl | rfl, heq⟩ := bindParameter_eq allocator hdirection hwords
  · rw [heq]
    exact assignOutput_reads hmessage hat hcarried hplaced howned
  · rw [heq]
    exact Reads.of_zeroed (assignOutput_reads hmessage hat hcarried hplaced howned)

end Consists

/-- A value that the decoder finds behind the last byte has no bytes, and every object of
such a description is encoded by nothing. -/
theorem encodeValue_of_exhausted {payload : List UInt8} {kind : FacetType}
    {metadata : FacetTypeMeta} {output : ℕ} {decoding : DecodeState}
    (hend : decoding.offset = payload.length)
    (hok : (decodeValue allocator payload kind metadata output decoding).1 = .ok ())
    (memory : Memory) (address : ℕ) (codec : FacetRpcCodec) :
    encodeValue memory kind metadata address codec = .ok codec := by
  have hrun := (decodeValue_run allocator payload).1 kind metadata output decoding
  generalize hresult : decodeValue allocator payload kind metadata output decoding = result
    at hok hrun
  obtain ⟨code, after⟩ := result
  cases hok
  obtain ⟨word, hword, hcarries, -⟩ := (follows_value payload).1 kind metadata hend.le hrun
  have hle := hcarries.le
  exact (encodeValue_of_bytes_nil memory).1 kind metadata word address codec hword
    (List.length_eq_zero_iff.mp (by omega))

/-- An output that the stub could not add is not found by the proxy. -/
theorem assignOutput_exhausted {source : Argument} {memory : Memory}
    {builder : MessageBuilder} {failure : FacetError}
    (hparam : source.param = argument.param)
    (hfailed : appendOutput memory source builder = .error failure)
    (hmessage : message.Consists builder.chunk) (hat : state.At builder.chunk) :
    (assignOutput allocator message argument state).1 ≠ .ok () := by
  obtain ⟨hwords, hhandles, hoffset⟩ := hat
  rcases argument.param.type.passing_cases with hhandle | huuid | hpayload | hword
  · obtain ⟨⟨direction, type, signedEnum⟩, address⟩ := argument
    cases hhandle
    have hentry : message.attachments[state.handleIndex]? = none := by
      rw [hmessage.attachments, hhandles]
      simp
    simp [assignOutput, readHandle, hentry]
  · obtain ⟨⟨direction, type, signedEnum⟩, address⟩ := argument
    cases huuid
    have hentry : message.words[state.wordIndex]? = none := by
      rw [hmessage.words, hwords]
      simp
    simp [assignOutput, hentry]
  · rw [assignOutput_payload hpayload]
    intro hok
    have hend : state.offset = message.payloadBytes.length := by
      rw [hmessage.payload, hoffset]
    have hencode := encodeValue_of_exhausted hend hok memory source.address
      (builder.codec.getD ⟨[], 256⟩)
    rw [← hparam] at hpayload hencode
    rw [appendOutput_payload hpayload, encodePayload, hencode] at hfailed
    cases hfailed
  · rw [← hparam] at hword
    rw [appendOutput_word hword] at hfailed
    cases hfailed

end Readers

end FacetOS.Rpc
