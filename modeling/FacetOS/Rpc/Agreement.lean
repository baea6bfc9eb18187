import FacetOS.Rpc.Wire

/-!
# Proxy and stub agree

A call is described by one slot for each parameter: the client's object and the
stub's local variable.  Marshalling and binding are runs over the same slots, and
each run consists of the steps of `Wire`.
-/

namespace FacetOS.Rpc

open LittleEndian ByteMemory

/-- A parameter with the client's object and the stub's variable for it. -/
structure Slot where
  param : FacetIdlParam
  outer : ℕ
  inner : ℕ

def Slot.argument (slot : Slot) : Argument :=
  ⟨slot.param, slot.outer⟩

def Slot.binding (slot : Slot) : Argument :=
  ⟨slot.param, slot.inner⟩

@[simp]
theorem Slot.argument_param (slot : Slot) : slot.argument.param = slot.param := rfl

@[simp]
theorem Slot.binding_param (slot : Slot) : slot.binding.param = slot.param := rfl

/-- The chunk carries one value for each slot whose parameter passes. -/
inductive CarriedAll (passes : FacetIdlParam → Prop) (value : Slot → Value) :
    List Slot → Chunk → Prop
  | nil : CarriedAll passes value [] .empty
  | skip {slot : Slot} {rest : List Slot} {chunk : Chunk} (hskip : ¬ passes slot.param)
      (hrest : CarriedAll passes value rest chunk) :
      CarriedAll passes value (slot :: rest) chunk
  | cons {slot : Slot} {rest : List Slot} {first later : Chunk} (hpass : passes slot.param)
      (hfirst : slot.param.type.Carried (value slot) first)
      (hrest : CarriedAll passes value rest later) :
      CarriedAll passes value (slot :: rest) (first ++ later)

def FacetIdlParam.Incoming (param : FacetIdlParam) : Prop :=
  param.direction ≠ .output

def FacetIdlParam.Outgoing (param : FacetIdlParam) : Prop :=
  param.direction ≠ .input

/-- What an object of a parameter's type would be sent as. -/
def Slot.sent (address : Slot → ℕ) (memory : Memory) (slot : Slot) : Value :=
  slot.param.type.sent memory (address slot)

/-- The decoder of a payload value that passes stores nothing outside its variable. -/
def Confined (passes : FacetIdlParam → Prop) (value : Slot → Value) (slots : List Slot) : Prop :=
  ∀ slot ∈ slots, passes slot.param → slot.param.type.payloadTypeFor = true →
    Spells Counted slot.param.type.kindFor slot.param.type.typeMeta (value slot).word →
    Placed objectSize slot.param.type.kindFor slot.param.type.typeMeta slot.param.type.cSize
      (value slot).word

variable {type : IdlType} {memory : Memory} {chunk : Chunk} {slot : Slot} {slots rest : List Slot}
  {state : ReadState} {builder : MessageBuilder}

theorem CarriedAll.mem {passes : FacetIdlParam → Prop} {value : Slot → Value}
    (hcarried : CarriedAll passes value slots chunk) (hslot : slot ∈ slots)
    (hpass : passes slot.param) : ∃ part, slot.param.type.Carried (value slot) part := by
  induction hcarried with
  | nil => cases hslot
  | skip hskip hrest ih =>
    rcases List.mem_cons.mp hslot with rfl | hlater
    · exact absurd hpass hskip
    · exact ih hlater
  | cons hhead hfirst hrest ih =>
    rcases List.mem_cons.mp hslot with rfl | hlater
    · exact ⟨_, hfirst⟩
    · exact ih hlater

/-! ## The request -/

/-- What the proxy marshals. -/
theorem marshalArguments_carried {outputs : ℕ} {result : MessageBuilder}
    (hok : marshalArguments memory (slots.map Slot.argument) outputs builder = .ok result) :
    ∃ chunk, CarriedAll FacetIdlParam.Incoming (Slot.sent Slot.outer memory) slots chunk ∧
      result.chunk = builder.chunk ++ chunk := by
  induction slots generalizing outputs builder with
  | nil =>
    cases hok
    exact ⟨.empty, .nil, (Chunk.append_empty _).symm⟩
  | cons slot rest ih =>
    have hsent (hincoming : slot.param.Incoming) {middle : MessageBuilder} {count : ℕ}
        (hadds : slot.param.type.Adds memory slot.outer builder middle)
        (hrest : marshalArguments memory (rest.map Slot.argument) count middle =
          .ok result) :
        ∃ chunk, CarriedAll FacetIdlParam.Incoming (Slot.sent Slot.outer memory) (slot :: rest)
            chunk ∧
          result.chunk = builder.chunk ++ chunk := by
      obtain ⟨first, hfirst, hmiddle⟩ := hadds
      obtain ⟨later, hlater, hresult⟩ := ih hrest
      refine ⟨first ++ later, .cons hincoming hfirst hlater, ?_⟩
      rw [hresult, hmiddle, Chunk.append_assoc]
    rw [List.map_cons, marshalArguments] at hok
    split at hok
    · rename_i hdirection
      have hincoming : slot.param.Incoming := ne_of_eq_of_ne hdirection (by decide)
      split at hok
      · cases hok
      · rename_i middle happend
        exact hsent hincoming (appendInput_adds happend) hok
    · rename_i hdirection
      split at hok
      · cases hok
      · obtain ⟨chunk, hchunk, hresult⟩ := ih hok
        exact ⟨chunk, .skip (fun hincoming => hincoming hdirection) hchunk, hresult⟩
    · rename_i hdirection
      have hincoming : slot.param.Incoming := ne_of_eq_of_ne hdirection (by decide)
      split at hok
      · cases hok
      · split at hok
        · cases hok
        · rename_i middle happend
          exact hsent hincoming (appendInputValue_adds happend) hok

/-- A marshalled request has the word count that the stub expects. -/
theorem CarriedAll.length_words {value : Slot → Value}
    (hcarried : CarriedAll FacetIdlParam.Incoming value slots chunk) :
    chunk.words.length = inputWords (slots.map Slot.binding) := by
  induction hcarried with
  | nil => rfl
  | skip hskip hrest ih =>
    rw [List.map_cons, inputWords, Slot.binding_param, if_pos (not_not.mp hskip),
      Nat.zero_add, ih]
  | cons hpass hfirst hrest ih =>
    rw [List.map_cons, inputWords, Slot.binding_param, if_neg hpass, Chunk.words_append,
      List.length_append, hfirst.length_words, ih]

/-- What a slot's variable holds after binding. -/
def boundPart (value : Slot → Value) (slot : Slot) : Block × (Memory → Prop) :=
  (slot.binding.block, fun memory => slot.param.Incoming →
    slot.param.type.Received (value slot) slot.inner memory)

/-- A run over several targets reports that memory ran out, or it succeeds and has
filled every target. -/
def FillsAll (code : Except FacetError Unit) (parts : List (Block × (Memory → Prop)))
    (before after : Heap) : Prop :=
  code = .error .outOfMemory ∨ code = .ok () ∧ FilledAll parts before after

/-- One step of such a run, followed by the remaining ones. -/
theorem Reads.fillsAll {result : Outcome ReadState} {position : Chunk}
    {part : Block × (Memory → Prop)} {parts : List (Block × (Memory → Prop))}
    {code : Except FacetError Unit} {after : Heap}
    (hstep : Reads result state position part.1 part.2)
    (hfailed : result.1 = .error .outOfMemory → code = .error .outOfMemory)
    (hrest : result.1 = .ok () → result.2.At position →
      (∀ other ∈ parts, Owned other.1 result.2.heap.live) →
        FillsAll code parts result.2.heap after)
    (hseparate : ∀ other ∈ parts, part.1.Separate other.1)
    (howned : ∀ other ∈ part :: parts, Owned other.1 state.heap.live) :
    FillsAll code (part :: parts) state.heap after := by
  obtain ⟨hpart, hothers⟩ := List.forall_mem_cons.mp howned
  rcases hstep with hmemory | ⟨hok, hat, hfilled⟩
  · exact .inl (hfailed hmemory)
  · rcases hrest hok hat fun other hother => hfilled.owned (hothers other hother) with
      hmemory | ⟨hlast, hall⟩
    · exact .inl hmemory
    · exact .inr ⟨hlast, FilledAll.cons hfilled hall hseparate hpart hothers⟩

section Binding

variable {allocator : Allocator} {message : LocalMessage} {value : Slot → Value}

/-- The stub binds every incoming value of the request to its variable. -/
theorem bindParameters_filled (allocator : Allocator) {before after : Chunk}
    (state : ReadState) (hcarried : CarriedAll FacetIdlParam.Incoming value slots chunk)
    (hconfined : Confined FacetIdlParam.Incoming value slots)
    (hseparate : (slots.map (boundPart value)).Pairwise fun left right =>
      left.1.Separate right.1)
    (hmessage : message.Consists (before ++ chunk ++ after)) (hat : state.At before)
    (howned : ∀ part ∈ slots.map (boundPart value), Owned part.1 state.heap.live) :
    FillsAll (bindParameters allocator message (slots.map Slot.binding) state).1
      (slots.map (boundPart value)) state.heap
      (bindParameters allocator message (slots.map Slot.binding) state).2.heap := by
  induction hcarried generalizing before state with
  | nil => exact .inr ⟨rfl, FilledAll.nil _⟩
  | @skip slot rest chunk hskip hrest ih =>
    obtain ⟨hfirst, hlater⟩ := List.pairwise_cons.mp hseparate
    have hzeroed := Filled.of_store state.heap slot.inner
      (List.replicate slot.param.type.cSize 0)
    rw [List.length_replicate] at hzeroed
    rw [List.map_cons, List.map_cons, bindParameters, bindParameter,
      if_pos (not_not.mp hskip : slot.binding.param.direction = .output)]
    have hstep : Reads (.ok (), state.store slot.inner (List.replicate slot.param.type.cSize 0))
        state before (boundPart value slot).1 (boundPart value slot).2 :=
      .inr ⟨rfl, hat, hzeroed.imp fun _ _ hincoming => absurd hincoming hskip⟩
    exact hstep.fillsAll (by rintro ⟨⟩) (fun _ hposition hlive =>
      ih _ (List.forall_mem_cons.mp hconfined).2 hlater hmessage hposition hlive) hfirst howned
  | @cons slot rest first later hpass hfirstCarried hrest ih =>
    obtain ⟨hfirst, hlater⟩ := List.pairwise_cons.mp hseparate
    obtain ⟨hinside, hconfined⟩ := List.forall_mem_cons.mp hconfined
    obtain ⟨hhead, htail⟩ := hmessage.split
    have hstep : Reads (bindParameter allocator message slot.binding state) state
        (before ++ first) (boundPart value slot).1 (boundPart value slot).2 :=
      (bindParameter_reads hhead hat hfirstCarried (hfirstCarried.placed (hinside hpass))
        (howned _ List.mem_cons_self) hpass).imp fun _ hreceived _ => hreceived
    rw [List.map_cons, List.map_cons, bindParameters]
    generalize bindParameter allocator message slot.binding state = result at hstep ⊢
    obtain ⟨code, next⟩ := result
    refine hstep.fillsAll ?_ ?_ hfirst howned
    · rintro ⟨⟩
      rfl
    · rintro ⟨⟩ hposition hlive
      exact ih _ hconfined hlater htail hposition hlive

end Binding

/-! ## The reply -/

/-- What the stub adds to a reply, also when it stops at an output. -/
theorem appendOutputs_extends (memory : Memory) (slots : List Slot) (builder : MessageBuilder) :
    ∃ chunk, (appendOutputs memory (slots.map Slot.binding) builder).2.chunk =
        builder.chunk ++ chunk ∧
      ((appendOutputs memory (slots.map Slot.binding) builder).1 = .ok () →
        CarriedAll FacetIdlParam.Outgoing (Slot.sent Slot.inner memory) slots chunk) := by
  induction slots generalizing builder with
  | nil => exact ⟨.empty, (Chunk.append_empty _).symm, fun _ => .nil⟩
  | cons slot rest ih =>
    rw [List.map_cons, appendOutputs, Slot.binding_param]
    split
    · rename_i hdirection
      obtain ⟨chunk, hchunk, hcarried⟩ := ih builder
      exact ⟨chunk, hchunk, fun hok =>
        .skip (fun houtgoing => houtgoing hdirection) (hcarried hok)⟩
    · rename_i hdirection
      cases happend : appendOutput memory slot.binding builder with
      | error failure =>
        refine ⟨.empty, (Chunk.append_empty _).symm, fun hok => ?_⟩
        cases hok
      | ok middle =>
        obtain ⟨first, hfirst, hmiddle⟩ := appendOutput_adds happend
        obtain ⟨later, hlater, hcarried⟩ := ih middle
        refine ⟨first ++ later, ?_, fun hok => .cons hdirection hfirst (hcarried hok)⟩
        rw [hlater, hmiddle, Chunk.append_assoc]

/-- What a client variable holds after the outputs have been assigned. -/
def assignedPart (value : Slot → Value) (slot : Slot) : Block × (Memory → Prop) :=
  (slot.argument.block, slot.param.type.Received (value slot) slot.outer)

/-- The slots that the client gets a value for. -/
def outgoing (slots : List Slot) : List Slot :=
  slots.filter fun slot => slot.param.direction ≠ .input

section Assigning

variable {allocator : Allocator} {message : LocalMessage} {value : Slot → Value}

theorem mem_outgoing :
    slot ∈ outgoing slots ↔ slot ∈ slots ∧ slot.param.Outgoing := by
  simp [outgoing, FacetIdlParam.Outgoing]

theorem outgoing_cons_of_input (hinput : ¬ slot.param.Outgoing) :
    outgoing (slot :: rest) = outgoing rest := by
  rw [outgoing, List.filter_cons_of_neg]
  · rfl
  · simpa [FacetIdlParam.Outgoing] using hinput

theorem outgoing_cons_of_output (houtput : slot.param.Outgoing) :
    outgoing (slot :: rest) = slot :: outgoing rest := by
  rw [outgoing, List.filter_cons_of_pos]
  · rfl
  · simpa [FacetIdlParam.Outgoing] using houtput

/-- The proxy assigns every outgoing value of the reply to its variable. -/
theorem assignOutputs_filled (allocator : Allocator) (assigned : List Argument)
    {before after : Chunk} (hcarried : CarriedAll FacetIdlParam.Outgoing value slots chunk)
    (hconfined : Confined FacetIdlParam.Outgoing value slots)
    (hseparate : ((outgoing slots).map (assignedPart value)).Pairwise fun left right =>
      left.1.Separate right.1)
    (hmessage : message.Consists (before ++ chunk ++ after)) (hat : state.At before)
    (howned : ∀ part ∈ (outgoing slots).map (assignedPart value),
      Owned part.1 state.heap.live) :
    FillsAll (assignOutputs allocator message (slots.map Slot.argument) assigned state).1
      ((outgoing slots).map (assignedPart value)) state.heap
      (assignOutputs allocator message (slots.map Slot.argument) assigned state).2 := by
  induction hcarried generalizing before state assigned with
  | nil => exact .inr ⟨rfl, FilledAll.nil _⟩
  | @skip slot rest chunk hskip hrest ih =>
    rw [outgoing_cons_of_input hskip] at hseparate howned ⊢
    rw [List.map_cons, assignOutputs, Slot.argument_param, if_pos (not_not.mp hskip)]
    exact ih _ (List.forall_mem_cons.mp hconfined).2 hseparate hmessage hat howned
  | @cons slot rest first later hpass hfirstCarried hrest ih =>
    rw [outgoing_cons_of_output hpass] at hseparate howned ⊢
    obtain ⟨hfirst, hlater⟩ := List.pairwise_cons.mp hseparate
    obtain ⟨hinside, hconfined⟩ := List.forall_mem_cons.mp hconfined
    obtain ⟨hhead, htail⟩ := hmessage.split
    have hstep : Reads (assignOutput allocator message slot.argument state) state
        (before ++ first) (assignedPart value slot).1 (assignedPart value slot).2 :=
      assignOutput_reads hhead hat hfirstCarried (hfirstCarried.placed (hinside hpass))
        (howned _ List.mem_cons_self)
    rw [List.map_cons, List.map_cons, assignOutputs, Slot.argument_param, if_neg hpass]
    generalize assignOutput allocator message slot.argument state = result at hstep ⊢
    obtain ⟨code, next⟩ := result
    refine hstep.fillsAll ?_ ?_ hfirst howned
    · rintro ⟨⟩
      rfl
    · rintro ⟨⟩ hposition hlive
      exact ih _ hconfined hlater htail hposition hlive

/-- A reply that the stub could not complete is not accepted by the proxy. -/
theorem assignOutputs_incomplete (allocator : Allocator) (assigned : List Argument)
    (hconfined : Confined FacetIdlParam.Outgoing (Slot.sent Slot.inner memory) slots)
    (howned : ∀ slot ∈ outgoing slots, Owned slot.argument.block state.heap.live)
    (hfailed : (appendOutputs memory (slots.map Slot.binding) builder).1 ≠ .ok ())
    (hmessage : message.Consists
      (appendOutputs memory (slots.map Slot.binding) builder).2.chunk)
    (hat : state.At builder.chunk) :
    (assignOutputs allocator message (slots.map Slot.argument) assigned state).1 ≠ .ok () := by
  induction slots generalizing builder state assigned with
  | nil => exact absurd rfl hfailed
  | cons slot rest ih =>
    obtain ⟨hinside, hconfined⟩ := List.forall_mem_cons.mp hconfined
    rw [List.map_cons, appendOutputs, Slot.binding_param] at hfailed hmessage
    rw [List.map_cons, assignOutputs, Slot.argument_param]
    by_cases hdirection : slot.param.direction = .input
    · have hinput : ¬ slot.param.Outgoing := fun houtgoing => houtgoing hdirection
      rw [if_pos hdirection] at hfailed hmessage ⊢
      rw [outgoing_cons_of_input hinput] at howned
      exact ih _ hconfined howned hfailed hmessage hat
    · rw [if_neg hdirection] at hfailed hmessage ⊢
      rw [outgoing_cons_of_output hdirection] at howned
      obtain ⟨htarget, howned⟩ := List.forall_mem_cons.mp howned
      cases happend : appendOutput memory slot.binding builder with
      | error failure =>
        rw [happend] at hmessage
        have hexhausted : (assignOutput allocator message slot.argument state).1 ≠ .ok () :=
          assignOutput_exhausted (show slot.binding.param = slot.argument.param from rfl) happend
            hmessage hat
        generalize assignOutput allocator message slot.argument state = result
          at hexhausted
        obtain ⟨code, next⟩ := result
        cases code with
        | error failure => simp
        | ok => exact absurd rfl hexhausted
      | ok middle =>
        rw [happend] at hfailed hmessage
        obtain ⟨first, hfirst, hmiddle⟩ := appendOutput_adds happend
        obtain ⟨later, hlater, -⟩ := appendOutputs_extends memory rest middle
        have hwhole : message.Consists (builder.chunk ++ first ++ later) := by
          rw [← hmiddle, ← hlater]
          exact hmessage
        have hstep : Reads (assignOutput allocator message slot.argument state) state
            (builder.chunk ++ first) slot.argument.block _ :=
          assignOutput_reads hwhole hat hfirst (hfirst.placed (hinside hdirection)) htarget
        generalize assignOutput allocator message slot.argument state = result at hstep
        obtain ⟨code, next⟩ := result
        rcases hstep with hmemory | ⟨hok, hposition, hfilled⟩
        · cases hmemory
          simp
        · cases hok
          rw [← hmiddle] at hposition
          exact ih _ hconfined (fun other hother => hfilled.owned (howned other hother)) hfailed
            hmessage hposition

end Assigning

/-! ## Replies that fit -/

/-- Attachments of a message that a parameter of the type takes. -/
def IdlType.handleCount : IdlType → ℕ
  | .handle => 1
  | _ => 0

/-- Sum of a count over the types of the outgoing parameters. -/
def outputTotal (count : IdlType → ℕ) : List Slot → ℕ
  | [] => 0
  | slot :: rest =>
    (if slot.param.direction = .input then 0 else count slot.param.type) +
      outputTotal count rest

/-- `facet_rpc_encode_value` accepts the outgoing payload values one after the
other. -/
def CodecAccepts (memory : Memory) : List Slot → FacetRpcCodec → Prop
  | [], _ => True
  | slot :: rest, codec =>
    if slot.param.direction ≠ .input ∧ slot.param.type.payloadTypeFor = true then
      ∃ next, encodeValue memory slot.param.type.kindFor slot.param.type.typeMeta slot.inner
        codec = .ok next ∧ CodecAccepts memory rest next
    else CodecAccepts memory rest codec

/-- The outputs fit one reply: 8 handles, 64 words with the result code, and payload
values that the codec accepts. -/
structure ReplyFits (memory : Memory) (slots : List Slot) : Prop where
  handles : outputTotal IdlType.handleCount slots ≤ rpcMaxAttachments
  words : 1 + outputTotal IdlType.wordCount slots ≤ rpcMaxWords
  payload : CodecAccepts memory slots ⟨[], 256⟩

theorem IdlType.handleCount_of_payload (hpayload : type.payloadTypeFor = true) :
    type.handleCount = 0 := by
  cases type
  case handle => cases hpayload
  all_goals rfl

theorem IdlType.handleCount_of_isWord (hword : type.isWord = true) :
    type.handleCount = 0 := by
  cases type
  case handle => cases hword
  all_goals rfl

/-- The stub completes a reply exactly when the outputs fit.  With at most 32
parameters the words that it stores without a check never exceed the array. -/
theorem appendOutputs_ok_iff (hhandles : builder.handles.length ≤ rpcMaxAttachments)
    (hwords : builder.words.length ≤ rpcMaxWords)
    (hcount : 2 * slots.length + builder.words.length ≤ rpcMaxWords + 1) :
    (appendOutputs memory (slots.map Slot.binding) builder).1 = .ok () ↔
      builder.handles.length + outputTotal IdlType.handleCount slots ≤ rpcMaxAttachments ∧
        builder.words.length + outputTotal IdlType.wordCount slots ≤ rpcMaxWords ∧
        CodecAccepts memory slots (builder.codec.getD ⟨[], 256⟩) := by
  have hmax : rpcMaxWords = 64 := rfl
  induction slots generalizing builder with
  | nil => simp [appendOutputs, outputTotal, CodecAccepts, hhandles, hwords]
  | cons slot rest ih =>
    rw [List.length_cons] at hcount
    rw [List.map_cons, appendOutputs, Slot.binding_param]
    simp only [outputTotal, CodecAccepts]
    by_cases hdirection : slot.param.direction = .input
    · simp only [hdirection, if_true, Nat.zero_add, ne_eq, not_true_eq_false, false_and,
        if_false]
      exact ih hhandles hwords (by omega)
    · simp only [hdirection, if_false, ne_eq, not_false_eq_true, true_and]
      rcases slot.param.type.passing_cases with hhandle | huuid | hpayload | hword
      · rw [appendOutput_handle (show slot.binding.param.type = .handle from hhandle),
          hhandle]
        simp only [IdlType.payloadTypeFor, Bool.false_eq_true, if_false]
        by_cases hfull : builder.handles.length ≥ rpcMaxAttachments
        · simp only [hfull, if_true, reduceCtorEq, IdlType.handleCount, false_iff]
          rintro ⟨hfit, -, -⟩
          omega
        · simp only [hfull, if_false]
          refine (ih ?_ ?_ ?_).trans ?_ <;>
            simp [IdlType.handleCount, IdlType.wordCount, Nat.add_assoc] <;> omega
      · rw [appendOutput_uuid (show slot.binding.param.type = .uuid from huuid), huuid]
        simp only [IdlType.payloadTypeFor, Bool.false_eq_true, if_false]
        by_cases hfull : builder.words.length > rpcMaxWords - 2
        · simp only [hfull, if_true, reduceCtorEq, IdlType.wordCount, false_iff]
          rintro ⟨-, hfit, -⟩
          omega
        · simp only [hfull, if_false]
          refine (ih ?_ ?_ ?_).trans ?_ <;>
            simp [IdlType.handleCount, IdlType.wordCount, Nat.add_assoc] <;> omega
      · rw [appendOutput_payload (show slot.binding.param.type.payloadTypeFor = true from
          hpayload), slot.param.type.handleCount_of_payload hpayload,
          slot.param.type.wordCount_of_payload hpayload, Nat.zero_add, Nat.zero_add,
          if_pos hpayload, encodePayload]
        simp only [Slot.binding]
        cases hencode : encodeValue memory slot.param.type.kindFor slot.param.type.typeMeta
            slot.inner (builder.codec.getD ⟨[], 256⟩) with
        | error failure => simp [Except.mapError]
        | ok codec =>
          simp only [Except.mapError]
          refine (ih ?_ ?_ ?_).trans ?_ <;> simp <;> omega
      · rw [appendOutput_word (show slot.binding.param.type.isWord = true from hword),
          slot.param.type.handleCount_of_isWord hword,
          slot.param.type.wordCount_of_isWord hword,
          slot.param.type.payloadTypeFor_of_isWord hword]
        simp only [Bool.false_eq_true, if_false]
        refine (ih ?_ ?_ ?_).trans ?_ <;> simp [Nat.add_assoc] <;> omega

/-! ## The call -/

/-- The objects of a call: at most 32 parameters, and separate variables in the
heaps of the client and of the stub. -/
structure CallLayout (slots : List Slot) (client server : Heap) : Prop where
  count : slots.length ≤ 32
  inputs : Confined FacetIdlParam.Incoming (Slot.sent Slot.outer client.memory) slots
  arguments_owned : ∀ slot ∈ outgoing slots, Owned slot.argument.block client.live
  arguments_separate : (outgoing slots).Pairwise fun left right =>
    left.argument.block.Separate right.argument.block
  locals_owned : ∀ slot ∈ slots, Owned slot.binding.block server.live
  locals_separate : slots.Pairwise fun left right =>
    left.binding.block.Separate right.binding.block

/-- The payload values of the passing parameters survive the codec: their false `bool`s
are followed by three zero bytes, and the bytes of their enums that it does not carry are
the same in both objects. -/
def PayloadsKept (passes : FacetIdlParam → Prop) (source target : Memory) (input output : Slot → ℕ)
    (slots : List Slot) : Prop :=
  ∀ slot ∈ slots, passes slot.param → slot.param.type.payloadTypeFor = true →
    slot.param.type.FalseBoolsPadded source (input slot) ∧
      slot.param.type.EnumsKept source target (input slot) (output slot)

/-- A received value is the one that was there exactly if it survives the codec. -/
theorem IdlType.Received.load_iff {source target : Memory} {input output : ℕ}
    (hcarried : type.Carried (type.sent source input) chunk)
    (hreceived : type.Received (type.sent source input) output target) :
    type.load target output = type.load source input ↔
      (type.payloadTypeFor = true →
        type.FalseBoolsPadded source input ∧ type.EnumsKept source target input output) := by
  by_cases hpayload : type.payloadTypeFor = true
  · have hspells := ((type.carried_payload hpayload).mp hcarried).2
    rw [IdlType.Received, if_pos hpayload] at hreceived
    rw [IdlType.sent, if_pos hpayload] at hspells hreceived
    rw [type.compares source target input output hspells hreceived]
    simp [hpayload]
  · rw [IdlType.Received, if_neg hpayload, IdlType.sent, if_neg hpayload] at hreceived
    simp [hpayload, hreceived]

section Call

variable (clientAllocator serverAllocator : Allocator) (implementation : Implementation)
  (methodId : UInt32) (slots : List Slot) (client server : Heap)

/-- The reply to a request that is carried unchanged in both directions. -/
def replyTo (request : LocalMessage) : LocalMessage :=
  dispatchReply (serverMethod serverAllocator implementation (slots.map Slot.binding)
    request server)

/-- The whole call, from the proxy to the stub and back. -/
def remoteInvocation : FacetResult × Heap :=
  libfacetProxyClientCall clientAllocator
    (fun request => (0, replyTo serverAllocator implementation slots server request))
    methodId (slots.map Slot.argument) client

/-- The implementation that is called with the heap `called` sees the client's
incoming values, and the client gets its result: the code and, on success, the
outgoing values. -/
def Agrees (called : Heap) : Prop :=
  let outcome := remoteInvocation clientAllocator serverAllocator implementation methodId
    slots client server
  (∀ slot ∈ slots, slot.param.Incoming →
    slot.param.type.load called.memory slot.inner =
      slot.param.type.load client.memory slot.outer) ∧
  ((implementation called).1 = 0 → outcome.1 = 0 ∧
    ∀ slot ∈ slots, slot.param.Outgoing →
      slot.param.type.load outcome.2.memory slot.outer =
        slot.param.type.load (implementation called).2.memory slot.inner) ∧
  ((implementation called).1 ≠ 0 → outcome.1 = (implementation called).1)

end Call

section Outcome

variable {clientAllocator serverAllocator : Allocator} {implementation : Implementation}
  {methodId : UInt32} {client server called : Heap} {builder : MessageBuilder}

/-- The stub gets as far as the implementation, with the values that were sent. -/
theorem calledWith_of_marshalled (hlayout : CallLayout slots client server)
    (hmarshal : marshalArguments client.memory (slots.map Slot.argument) 0 .empty =
      .ok builder)
    (hserver : (bindParameters serverAllocator (builder.message methodId)
      (slots.map Slot.binding) ⟨server, 0, 0, 0⟩).1 ≠ .error .outOfMemory) :
    ∃ called, calledWith serverAllocator (slots.map Slot.binding) (builder.message methodId)
        server = some called ∧
      ((∀ slot ∈ slots, slot.param.Incoming →
        slot.param.type.load called.memory slot.inner =
          slot.param.type.load client.memory slot.outer) ↔
        PayloadsKept FacetIdlParam.Incoming client.memory called.memory Slot.outer Slot.inner
          slots) := by
  obtain ⟨chunk, hcarried, hchunk⟩ := marshalArguments_carried hmarshal
  have hempty : MessageBuilder.empty.chunk = .empty := rfl
  have hmessage : (builder.message methodId).Consists
      (Chunk.empty ++ chunk ++ Chunk.empty) := by
    rw [Chunk.append_empty, ← hempty, ← hchunk]
    exact builder.message_consists methodId
  have hcount : (builder.message methodId).words.length =
      inputWords (slots.map Slot.binding) := by
    rw [hmessage.words, ← hcarried.length_words]
    simp [Chunk.empty]
  have hbound := bindParameters_filled serverAllocator ⟨server, 0, 0, 0⟩ hcarried hlayout.inputs
    (List.pairwise_map.mpr hlayout.locals_separate) hmessage ⟨rfl, rfl, rfl⟩
    (List.forall_mem_map.mpr hlayout.locals_owned)
  rw [calledWith, if_neg (not_not.mpr hcount)]
  generalize bindParameters serverAllocator (builder.message methodId)
    (slots.map Slot.binding) ⟨server, 0, 0, 0⟩ = result at hserver hbound
  obtain ⟨code, state⟩ := result
  rcases hbound with hmemory | ⟨hok, hfilled⟩
  · exact absurd hmemory hserver
  · cases hok
    refine ⟨state.heap, rfl, forall₃_congr fun slot hslot hincoming => ?_⟩
    obtain ⟨part, hpart⟩ := hcarried.mem hslot hincoming
    exact IdlType.Received.load_iff hpart (hfilled.holds (List.mem_map_of_mem hslot) hincoming)

/-- The reply under construction when the implementation has returned. -/
def appendedReply (implementation : Implementation) (slots : List Slot) (called : Heap) :
    Except FacetError Unit × MessageBuilder :=
  appendOutputs (implementation called).2.memory (slots.map Slot.binding)
    ⟨[resultWord (implementation called).1], [], none⟩

theorem appendedReply_words (implementation : Implementation) (slots : List Slot) (called : Heap) :
    ∃ words, (appendedReply implementation slots called).2.words =
    resultWord (implementation called).1 :: words := by
  obtain ⟨chunk, hchunk, -⟩ := appendOutputs_extends (implementation called).2.memory slots
    ⟨[resultWord (implementation called).1], [], none⟩
  exact ⟨chunk.words, congrArg Chunk.words hchunk⟩

/-- The reply of a stub that has called the implementation. -/
theorem replyTo_of_calledWith {request : LocalMessage}
    (hcalled : calledWith serverAllocator (slots.map Slot.binding) request server =
      some called) :
    replyTo serverAllocator implementation slots server request =
      (appendedReply implementation slots called).2.message 0 := by
  obtain ⟨words, hwords⟩ := appendedReply_words implementation slots called
  unfold calledWith at hcalled
  rw [replyTo, serverMethod]
  split at hcalled
  · cases hcalled
  rename_i hcount
  rw [if_neg hcount]
  generalize bindParameters serverAllocator request (slots.map Slot.binding)
    ⟨server, 0, 0, 0⟩ = result at hcalled ⊢
  obtain ⟨code, state⟩ := result
  cases code with
  | error failure => cases hcalled
  | ok =>
    cases hcalled
    dsimp only
    rw [← appendedReply]
    generalize appendedReply implementation slots state.heap = appended at hwords ⊢
    obtain ⟨outcome, reply⟩ := appended
    have hne : reply.words ≠ [] := fun hnil => nomatch hnil.symm.trans hwords
    cases outcome <;> simp only [dispatchReply, hne, if_false]

variable (hmarshal : marshalArguments client.memory (slots.map Slot.argument) 0 .empty =
    .ok builder)
  (hcalled : calledWith serverAllocator (slots.map Slot.binding) (builder.message methodId)
    server = some called)
include hmarshal hcalled

/-- The client gets the error of an implementation that fails, and otherwise assigns the
outputs from the reply. -/
theorem remoteInvocation_eq (clientAllocator : Allocator) (implementation : Implementation) :
    remoteInvocation clientAllocator serverAllocator implementation methodId slots client
        server =
      if (implementation called).1 ≠ 0 then ((implementation called).1, client)
      else assignmentResult (assignOutputs clientAllocator
        ((appendedReply implementation slots called).2.message 0)
        (slots.map Slot.argument) [] ⟨client, 1, 0, 0⟩) := by
  obtain ⟨words, hwords⟩ := appendedReply_words implementation slots called
  have hreply : ((appendedReply implementation slots called).2.message 0).words =
      resultWord (implementation called).1 :: words := hwords
  rw [remoteInvocation, libfacetProxyClientCall, hmarshal]
  dsimp only
  rw [if_neg (by simp), replyTo_of_calledWith hcalled, hreply]
  dsimp only
  rw [resultWord_toInt32]

/-- The outputs arrive exactly when they fit the reply and survive the codec. -/
theorem remoteInvocation_outputs (hlayout : CallLayout slots client server)
    (hconfined : Confined FacetIdlParam.Outgoing
      (Slot.sent Slot.inner (implementation called).2.memory) slots)
    (hresult : (implementation called).1 = 0)
    (hclient : (assignOutputs clientAllocator
      (replyTo serverAllocator implementation slots server (builder.message methodId))
      (slots.map Slot.argument) [] ⟨client, 1, 0, 0⟩).1 ≠ .error .outOfMemory) :
    let outcome := remoteInvocation clientAllocator serverAllocator implementation methodId
      slots client server
    (outcome.1 = 0 ↔ ReplyFits (implementation called).2.memory slots) ∧
      (ReplyFits (implementation called).2.memory slots →
        ((∀ slot ∈ slots, slot.param.Outgoing →
          slot.param.type.load outcome.2.memory slot.outer =
            slot.param.type.load (implementation called).2.memory slot.inner) ↔
          PayloadsKept FacetIdlParam.Outgoing (implementation called).2.memory outcome.2.memory
            Slot.inner Slot.outer slots)) := by
  intro outcome
  have houtcome : outcome = _ :=
    (remoteInvocation_eq hmarshal hcalled clientAllocator implementation).trans
      (if_neg (not_not.mpr hresult))
  rw [replyTo_of_calledWith hcalled] at hclient
  have hmax : rpcMaxWords = 64 := rfl
  have hcount := hlayout.count
  have hfits : (appendedReply implementation slots called).1 = .ok () ↔
      ReplyFits (implementation called).2.memory slots := by
    rw [appendedReply, appendOutputs_ok_iff]
    · simp only [List.length_nil, Nat.zero_add, List.length_singleton]
      exact ⟨fun ⟨hhandles, hwords, hpayload⟩ => ⟨hhandles, hwords, hpayload⟩,
        fun hfit => ⟨hfit.handles, hfit.words, hfit.payload⟩⟩
    · exact Nat.zero_le _
    · exact (show 1 ≤ 64 by decide)
    · rw [List.length_singleton]
      omega
  have hconsists := (appendedReply implementation slots called).2.message_consists 0
  have hfirst : (ReadState.mk client 1 0 0).At
      (MessageBuilder.chunk ⟨[resultWord (implementation called).1], [], none⟩) :=
    ⟨rfl, rfl, rfl⟩
  by_cases hok : (appendedReply implementation slots called).1 = .ok ()
  · obtain ⟨chunk, hchunk, hcarried⟩ := appendOutputs_extends
      (implementation called).2.memory slots ⟨[resultWord (implementation called).1], [], none⟩
    rw [appendedReply, hchunk, ← Chunk.append_empty (_ ++ chunk)] at hconsists
    have hassigned := assignOutputs_filled clientAllocator [] (hcarried hok) hconfined
      (List.pairwise_map.mpr hlayout.arguments_separate) hconsists hfirst
      (List.forall_mem_map.mpr hlayout.arguments_owned)
    rcases hassigned with hmemory | ⟨hassigned, hfilled⟩
    · exact absurd hmemory hclient
    rw [appendedReply] at houtcome
    generalize assignOutputs clientAllocator _ (slots.map Slot.argument) []
      ⟨client, 1, 0, 0⟩ = assignment at houtcome hassigned hfilled
    obtain ⟨code, after⟩ := assignment
    cases hassigned
    rw [houtcome]
    refine ⟨⟨fun _ => hfits.mp hok, fun _ => rfl⟩,
      fun _ => forall₃_congr fun slot hslot houtgoing => ?_⟩
    obtain ⟨part, hpart⟩ := (hcarried hok).mem hslot houtgoing
    exact IdlType.Received.load_iff hpart
      (hfilled.holds (List.mem_map_of_mem (mem_outgoing.mpr ⟨hslot, houtgoing⟩)))
  · have hincomplete := assignOutputs_incomplete clientAllocator [] hconfined
      hlayout.arguments_owned hok hconsists hfirst
    generalize assignOutputs clientAllocator _ (slots.map Slot.argument) []
      ⟨client, 1, 0, 0⟩ = assignment at houtcome hincomplete
    obtain ⟨code, after⟩ := assignment
    cases code with
    | ok => exact absurd rfl hincomplete
    | error failure =>
      rw [houtcome]
      refine ⟨⟨fun hzero => ?_, fun hfit => absurd (hfits.mpr hfit) hok⟩,
        fun hfit => absurd (hfits.mpr hfit) hok⟩
      exact absurd hzero (show FacetError.protocolError.code ≠ 0 by decide)

end Outcome

/-- A call with a number, the string "hi" and an output handle. -/
def openSlots : List Slot :=
  [⟨⟨.input, .int .u32, false⟩, 16, 128⟩, ⟨⟨.input, .string, false⟩, 32, 144⟩,
    ⟨⟨.output, .handle, false⟩, 48, 160⟩]

def openClient : Heap :=
  ⟨store (storeNat (storeNat (storeNat (fun _ => 0) 16 4 7) 32 8 64) 40 8 2) 64 [104, 105],
    [⟨16, 4⟩, ⟨32, 16⟩, ⟨48, 8⟩, ⟨64, 2⟩]⟩

def openServer : Heap :=
  ⟨fun _ => 0, [⟨128, 4⟩, ⟨144, 16⟩, ⟨160, 8⟩]⟩

/-- The implementation stores the handle 9. -/
def openImplementation : Implementation :=
  fun heap => (0, ⟨storeNat (fun _ => 0) 160 8 9, heap.live⟩)

theorem forall_mem_openSlots {property : Slot → Prop} : (∀ slot ∈ openSlots, property slot) ↔
    property ⟨⟨.input, .int .u32, false⟩, 16, 128⟩ ∧
      property ⟨⟨.input, .string, false⟩, 32, 144⟩ ∧
      property ⟨⟨.output, .handle, false⟩, 48, 160⟩ := by
  simp [openSlots]

theorem openLayout : CallLayout openSlots openClient openServer where
  count := by decide
  inputs := forall_mem_openSlots.mpr
    ⟨fun _ hpayload => absurd hpayload (by decide), fun _ _ _ => show 16 ≤ 16 by decide,
      fun hincoming => absurd rfl hincoming⟩
  arguments_owned := by
    simp only [mem_outgoing, and_imp]
    exact forall_mem_openSlots.mpr ⟨fun hinput => absurd rfl hinput,
      fun hinput => absurd rfl hinput, fun _ => ⟨⟨48, 8⟩, by decide, fun _ hcovers => hcovers⟩⟩
  arguments_separate := by
    simp [openSlots, outgoing]
  locals_owned := forall_mem_openSlots.mpr
    ⟨⟨⟨128, 4⟩, by decide, fun _ hcovers => hcovers⟩,
      ⟨⟨144, 16⟩, by decide, fun _ hcovers => hcovers⟩,
      ⟨⟨160, 8⟩, by decide, fun _ hcovers => hcovers⟩⟩
  locals_separate := by
    simp only [openSlots, List.pairwise_cons, List.mem_cons, List.not_mem_nil, or_false,
      forall_eq_or_imp, forall_eq]
    refine ⟨⟨?_, ?_⟩, ?_, by simp, List.Pairwise.nil⟩
    · exact Block.separate_of_le (show 128 + 4 ≤ 144 by decide)
    · exact Block.separate_of_le (show 128 + 4 ≤ 160 by decide)
    · exact Block.separate_of_le (show 144 + 16 ≤ 160 by decide)

/-- A method with nine output handles. -/
def nineHandles : List Slot :=
  (List.range 9).map fun index => ⟨⟨.output, .handle, false⟩, 16 + 8 * index, 128 + 8 * index⟩

def nineHandlesHeap : Heap :=
  ⟨fun _ => 0, [⟨16, 72⟩, ⟨128, 72⟩]⟩

/-- An implementation that succeeds and changes nothing. -/
def succeeding : Implementation :=
  fun heap => (0, heap)

end FacetOS.Rpc
