import FacetOS.Core.Reading
import FacetOS.Transport.Reply

/-!
# Replies of untrusted servers

A server decides alone which message it sends back: its length, the contents of the
registers, the payload size and the flags it announces and its capabilities.  The two
receivers are written here as programs that read registers, so that one can say which
registers they have read when they report success.
-/

namespace FacetOS.Transport

open LittleEndian Registers Rpc Reading
open Passes (ite_error_eq_ok)

/-! ## The receivers as programs -/

/-- The bytes of a payload from the registers that were read for it. -/
def unpackRegisters (size : ℕ) (registers : List UInt64) : List UInt8 :=
  unpackWords wordBytes size fun index => (registers.getD index 0).toNat

@[simp]
theorem length_unpackRegisters (size : ℕ) (registers : List UInt64) :
    (unpackRegisters size registers).length = size :=
  length_unpackWords size _ (by decide)

/-- The registers of a payload, which are read only if it stands in the message. -/
def getPacked (inline : Prop) [Decidable inline] (base count : ℕ) :
    Program UInt64 (List UInt64) :=
  if inline then getRegisters base count else pure []

/-- The reply with what has been read from the registers. -/
def readReply (flags protocolVersion : UInt32) (words : List UInt64) (payloadSize : ℕ)
    (inline : Prop) [Decidable inline] (packed : List UInt64)
    (attachments : List RpcAttachment) : RpcMessage where
  protocolVersion := protocolVersion
  methodId := 0
  flags := flags
  words := words
  payload := if inline then some (unpackRegisters payloadSize packed) else none
  payloadSize := payloadSize
  attachments := attachments
  payload_readable := readable_ite (length_unpackRegisters _ _)

/-- `remote_call` after `seL4_Call` returned a message of this length with these
capabilities. -/
def remoteCallProgram (abi : Sel4Abi) (length : ℕ) (received : List FacetHandle) :
    Program UInt64 (Except FacetError RpcMessage) := do
  let version ← getRegister 1
  let flagsWord ← getRegister 2
  let size ← getRegister 3
  let protocolVersion := version.toUInt32
  let flags := flagsWord.toUInt32
  let payloadSize := size.toNat
  let payloadWords := if sharedPayload flags then 0 else wireWordCount payloadSize
  let available := length - 4
  let wordCount := 1 + (available - payloadWords)
  if protocolVersion ≠ rpcProtocolVersion then pure (.error .protocolError)
  else if payloadWords = sizeMax then pure (.error .protocolError)
  else if wordCount > rpcMaxWords then pure (.error .protocolError)
  else do
    let first ← getRegister 0
    let others ← getRegisters 4 (wordCount - 1)
    let inline := sharedPayload flags = false ∧ payloadSize ≠ 0 ∧ payloadWords ≤ available
    let packed ← getPacked inline (4 + wordCount - 1) payloadWords
    let caps := received.take sel4MaxAttachments
    let buffers := bufferCount flags
    let reply := readReply flags protocolVersion (first :: others) payloadSize inline packed
      (receivedAttachments caps buffers)
    pure (if buffers > caps.length then .error .protocolError
      else if (caps.take (caps.length - buffers)).any (· == none) then .error .outOfMemory
      else if buffers ≠ 0 then
        bulkReadReceived abi reply (caps.length - buffers) buffers
          (caps.drop (caps.length - buffers))
      else .ok reply)

/-- `libfacet_platform_call` of the client after `seL4_Call` returned. -/
def libfacetPlatformReplyProgram (length : ℕ) (caps : List FacetHandle) :
    Program UInt64 (Except FacetError RpcMessage) :=
  if caps.length > 1 then pure (.error .protocolError)
  else if length < 4 then pure (.error .protocolError)
  else do
    let version ← getRegister 1
    let flagsWord ← getRegister 2
    let size ← getRegister 3
    let protocolVersion := version.toUInt32
    let flags := flagsWord.toUInt32
    let payloadSize := size.toNat
    let payloadWords := wireWordCount payloadSize
    let available := length - 4
    let wordCount := 1 + available - payloadWords
    if sharedPayload flags ∨ payloadSize > rpcMaxInlinePayload then pure (.error .notSupported)
    else if payloadWords = sizeMax ∨ payloadWords > available then pure (.error .protocolError)
    else if wordCount > rpcMaxWords then pure (.error .protocolError)
    else do
      let first ← getRegister 0
      let others ← getRegisters 4 (wordCount - 1)
      if protocolVersion ≠ rpcProtocolVersion then pure (.error .protocolError)
      else do
        let packed ← getPacked (payloadSize ≠ 0) (4 + wordCount - 1) payloadWords
        pure (.ok (readReply flags protocolVersion (first :: others) payloadSize
          (payloadSize ≠ 0) packed (caps.map fun cap => ⟨.handle, cap, 0⟩)))

/-! ## The programs compute what the receivers return -/

variable (received : Sel4Received)

theorem map_range'_eq_readWords (base count : ℕ) :
    (List.range' base count).map received.registers = readWords received base count := by
  rw [readWords, List.range'_eq_map_range, List.map_map]
  rfl

theorem unpackRegisters_readWords (base size : ℕ) :
    unpackRegisters size (readWords received base (wordCount wordBytes size)) =
      readPayload received base size := by
  apply List.flatMap_congr
  intro index hindex
  simp [readWords, List.mem_range.mp hindex]

/-- The payload that is unpacked from the registers read for it. -/
theorem unpackRegisters_getPacked {inline : Prop} [Decidable inline]
    {base count size : ℕ} (hcount : inline → count = wordCount wordBytes size) :
    (if inline then
        some (unpackRegisters size ((getPacked inline base count).run received.registers))
      else none) =
      if inline then some (readPayload received base size) else none := by
  refine ite_congr rfl (fun hinline => ?_) fun _ => rfl
  rw [getPacked, if_pos hinline, run_getRegisters, map_range'_eq_readWords, hcount hinline,
    unpackRegisters_readWords]

/-- The number of registers that `remote_call` takes for an inline payload. -/
theorem payloadWords_of_inline {flags : UInt32} {size available : ℕ}
    (hmax : ¬ (if sharedPayload flags then 0 else wireWordCount size) = sizeMax)
    (hinline : sharedPayload flags = false ∧ size ≠ 0 ∧
      (if sharedPayload flags then 0 else wireWordCount size) ≤ available) :
    (if sharedPayload flags then 0 else wireWordCount size) = wordCount wordBytes size := by
  rw [if_neg (by simp [hinline.1])] at hmax ⊢
  exact (wireWordCount_of_ne_sizeMax hmax).1

/-- `remoteCall` is what the program returns. -/
theorem run_remoteCallProgram (abi : Sel4Abi) (received : Sel4Received) :
    (remoteCallProgram abi received.length received.caps).run received.registers =
      remoteCall abi received := by
  rw [remoteCallProgram, remoteCall]
  simp only [run_getRegister_bind, Program.run_ite, Program.run_pure]
  simp only [Program.run_bind, Program.run_pure, run_getRegisters, map_range'_eq_readWords]
  refine ite_congr rfl (fun _ => rfl) fun _ => ?_
  refine ite_congr rfl (fun _ => rfl) fun hmax => ?_
  simp only [readReply, unpackRegisters_getPacked received (payloadWords_of_inline hmax)]

/-- `libfacetPlatformReply` is what the client's program returns. -/
theorem run_libfacetPlatformReplyProgram :
    (libfacetPlatformReplyProgram received.length received.caps).run received.registers =
      libfacetPlatformReply received := by
  rw [libfacetPlatformReplyProgram, libfacetPlatformReply]
  simp only [run_getRegister_bind, Program.run_ite, Program.run_pure]
  simp only [Program.run_bind, Program.run_ite, Program.run_pure, run_getRegisters,
    map_range'_eq_readWords]
  refine ite_congr rfl (fun _ => rfl) fun _ => ?_
  refine ite_congr rfl (fun _ => rfl) fun _ => ?_
  refine ite_congr rfl (fun _ => rfl) fun _ => ?_
  refine ite_congr rfl (fun _ => rfl) fun hfits => ?_
  have hcount : (received.registers 3).toNat ≠ 0 →
      wireWordCount (received.registers 3).toNat =
        wordCount wordBytes (received.registers 3).toNat := fun _ =>
    (wireWordCount_of_ne_sizeMax fun hmax => hfits (Or.inl hmax)).1
  simp only [readReply, unpackRegisters_getPacked received hcount]

/-! ## What an accepted message announces -/

def announcedFlags : UInt32 := (received.registers 2).toUInt32

def announcedSize : ℕ := (received.registers 3).toNat

/-- The registers that the announced payload takes. -/
def announcedWords : ℕ :=
  if sharedPayload (announcedFlags received) then 0 else wireWordCount (announcedSize received)

/-- The bytes stand in registers within the length of the message, or in a frame that
was sent with it. -/
def TakenFrom (bytes : List UInt8) : Prop :=
  (∃ base, base + wordCount wordBytes bytes.length ≤ received.length ∧
      bytes = readPayload received base bytes.length) ∨
    ∃ page, some (.frame page) ∈ received.caps ∧ bytes <+: page

theorem takenFrom_nil : TakenFrom received [] :=
  Or.inl ⟨0, Nat.zero_le _, rfl⟩

/-- The checks that `remote_call` makes before it reads words and payload. -/
structure Announced (received : Sel4Received) : Prop where
  version : (received.registers 1).toUInt32 = rpcProtocolVersion
  words_ne : announcedWords received ≠ sizeMax
  words_le : 1 + (received.length - 4 - announcedWords received) ≤ rpcMaxWords

/-- A payload that `remote_call` reads from the registers. -/
def Inline : Prop :=
  sharedPayload (announcedFlags received) = false ∧ announcedSize received ≠ 0 ∧
    announcedWords received ≤ received.length - 4

instance (received : Sel4Received) : Decidable (Inline received) :=
  inferInstanceAs (Decidable (_ ∧ _))

variable {received : Sel4Received}

/-- The frames whose contents are copied are those that were sent. -/
theorem readFrames_single {abi : Sel4Abi} {size : ℕ} {caps : List FacetHandle}
    {bytes : List UInt8} (hcaps : caps.length = 1) (hread : readFrames abi size caps = .ok bytes) :
    ∃ page, some (.frame page) ∈ caps ∧ bytes <+: page := by
  obtain ⟨cap, rfl⟩ := List.length_eq_one_iff.mp hcaps
  rw [readFrames.eq_def] at hread
  split at hread
  · rename_i hnil
    cases hnil
  · rename_i page rest hcons
    cases hcons
    cases hread
    exact ⟨page, List.mem_cons_self, by simpa using List.take_prefix _ _⟩
  · cases hread

/-- The reply as it stands in the registers. -/
def registerReply (received : Sel4Received) : RpcMessage where
  protocolVersion := (received.registers 1).toUInt32
  methodId := 0
  flags := announcedFlags received
  words := received.registers 0 ::
    readWords received 4 (1 + (received.length - 4 - announcedWords received) - 1)
  payload :=
    if Inline received then
      some (readPayload received (4 + (1 + (received.length - 4 - announcedWords received)) - 1)
        (announcedSize received))
    else none
  payloadSize := announcedSize received
  attachments := receivedAttachments (received.caps.take sel4MaxAttachments)
    (bufferCount (announcedFlags received))
  payload_readable := readable_ite (length_readPayload ..)

theorem length_words_registerReply (received : Sel4Received) :
    (registerReply received).words.length =
      1 + (received.length - 4 - announcedWords received) := by
  rw [registerReply, List.length_cons, length_readWords]
  omega

/-- `remote_call` in terms of what the message announces. -/
theorem remoteCall_eq (abi : Sel4Abi) (received : Sel4Received) :
    remoteCall abi received =
      let caps := received.caps.take sel4MaxAttachments
      let buffers := bufferCount (announcedFlags received)
      if (received.registers 1).toUInt32 ≠ rpcProtocolVersion then .error .protocolError
      else if announcedWords received = sizeMax then .error .protocolError
      else if 1 + (received.length - 4 - announcedWords received) > rpcMaxWords then
        .error .protocolError
      else if buffers > caps.length then .error .protocolError
      else if (caps.take (caps.length - buffers)).any (· == none) then .error .outOfMemory
      else if buffers ≠ 0 then
        bulkReadReceived abi (registerReply received) (caps.length - buffers) buffers
          (caps.drop (caps.length - buffers))
      else .ok (registerReply received) :=
  rfl

/-- What `remote_call` returns with success: what stands in the registers, or the
contents of a frame in the place of the payload. -/
theorem remoteCall_eq_ok {abi : Sel4Abi} {reply : RpcMessage}
    (hok : remoteCall abi received = .ok reply) :
    Announced received ∧ reply.words = (registerReply received).words ∧
      reply.payloadSize = announcedSize received ∧
      ((bufferCount (announcedFlags received) = 0 ∧
          reply.payload = (registerReply received).payload) ∨
        (bufferCount (announcedFlags received) ≠ 0 ∧
          ∃ bytes, reply.payload = some bytes ∧ bytes.length = announcedSize received ∧
            ∃ page, some (.frame page) ∈ received.caps ∧ bytes <+: page)) := by
  rw [remoteCall_eq] at hok
  simp only [ite_error_eq_ok, ne_eq, not_not, not_lt] at hok
  obtain ⟨hversion, hmax, hwords, hbuffers, -, hok⟩ := hok
  refine ⟨⟨hversion, hmax, hwords⟩, ?_⟩
  split at hok
  · rename_i hframes
    have hshared := sharedPayload_of_bufferCount hframes
    have hbulk := bulkReadReceived_eq_ok hok
    obtain ⟨-, hpositive, hfew, bytes, hread, hpayload, hlength⟩ := hbulk.shared hshared
    have hone : (((received.caps.take sel4MaxAttachments).drop
        ((received.caps.take sel4MaxAttachments).length -
          bufferCount (announcedFlags received))).take
        (bufferCount (announcedFlags received))).length = 1 := by
      rw [List.length_take, List.length_drop]
      simp only [sel4MaxAttachments] at hfew hbuffers ⊢
      omega
    obtain ⟨page, hpage, hbegin⟩ := readFrames_single hone hread
    exact ⟨hbulk.words, hbulk.payloadSize, Or.inr ⟨hframes, bytes, hpayload, hlength, page,
      List.mem_of_mem_take (List.mem_of_mem_drop (List.mem_of_mem_take hpage)), hbegin⟩⟩
  · rename_i hnone
    cases hok
    exact ⟨rfl, rfl, Or.inl ⟨not_not.mp hnone, rfl⟩⟩

/-! ## The registers read -/

theorem reads_getPacked (registers : ℕ → UInt64) {inline : Prop} [Decidable inline]
    (base count : ℕ) :
    (getPacked inline base count).reads registers =
      if inline then List.range' base count else [] := by
  rw [getPacked, Program.reads_ite, reads_getRegisters, Program.reads_pure]

theorem reads_remoteCallProgram (abi : Sel4Abi) (hannounced : Announced received) :
    (remoteCallProgram abi received.length received.caps).reads received.registers =
      [1, 2, 3, 0] ++ List.range' 4 (received.length - 4 - announcedWords received) ++
        if Inline received then
          List.range' (4 + (received.length - 4 - announcedWords received))
            (announcedWords received)
        else [] := by
  have hversion : ¬ (received.registers 1).toUInt32 ≠ rpcProtocolVersion :=
    not_not.mpr hannounced.version
  have hmax : ¬ (if sharedPayload (received.registers 2).toUInt32 = true then 0
      else wireWordCount (received.registers 3).toNat) = sizeMax := hannounced.words_ne
  have hwords : ¬ 1 + (received.length - 4 -
      if sharedPayload (received.registers 2).toUInt32 = true then 0
        else wireWordCount (received.registers 3).toNat) > rpcMaxWords :=
    Nat.not_lt.mpr hannounced.words_le
  have hbase (count : ℕ) : 4 + (1 + count) - 1 = 4 + count := by omega
  rw [remoteCallProgram]
  simp only [reads_getRegister_bind, if_neg hversion, if_neg hmax, if_neg hwords]
  simp only [Program.reads_bind, reads_getRegisters, reads_getPacked, Program.reads_pure,
    List.append_nil, Nat.add_sub_cancel_left, hbase]
  rw [List.append_assoc]
  rfl

theorem reads_remoteCallProgram_lt_iff (abi : Sel4Abi) (hannounced : Announced received) :
    (∀ index ∈ (remoteCallProgram abi received.length received.caps).reads received.registers,
      index < received.length) ↔ 4 ≤ received.length := by
  rw [reads_remoteCallProgram abi hannounced]
  constructor
  · intro hlt
    exact hlt 3 (by simp)
  intro hcontrol index hindex
  rw [List.mem_append, List.mem_append] at hindex
  rcases hindex with (hfirst | hword) | hpacked
  · have hfour : index < 4 := by
      revert hfirst
      revert index
      decide
    omega
  · have hrange := List.mem_range'_1.mp hword
    omega
  · split at hpacked
    · rename_i hinline
      have hrange := List.mem_range'_1.mp hpacked
      have hfits := hinline.2.2
      omega
    · cases hpacked

/-- The checks of the client, in their order after the control registers. -/
theorem libfacetPlatformReply_eq_ok {reply : RpcMessage}
    (hok : libfacetPlatformReply received = .ok reply) :
    received.caps.length ≤ 1 ∧ 4 ≤ received.length ∧
      sharedPayload (announcedFlags received) = false ∧
      announcedSize received ≤ rpcMaxInlinePayload ∧
      wireWordCount (announcedSize received) = wordCount wordBytes (announcedSize received) ∧
      wireWordCount (announcedSize received) ≤ received.length - 4 ∧
      1 + (received.length - 4) - wireWordCount (announcedSize received) ≤ rpcMaxWords ∧
      (received.registers 1).toUInt32 = rpcProtocolVersion ∧
      reply.words.length = 1 + (received.length - 4) - wireWordCount (announcedSize received) ∧
      reply.payloadSize = announcedSize received ∧
      reply.payload = if announcedSize received ≠ 0 then
          some (readPayload received
            (4 + (1 + (received.length - 4) - wireWordCount (announcedSize received)) - 1)
            (announcedSize received))
        else none := by
  simp only [libfacetPlatformReply, ite_error_eq_ok, ne_eq, not_not, not_lt, not_or] at hok
  obtain ⟨hcaps, hlength, ⟨hclear, hinline⟩, ⟨hmax, hfits⟩, hwords, hversion, hok⟩ := hok
  cases hok
  refine ⟨hcaps, hlength, Bool.eq_false_of_not_eq_true hclear, hinline,
    (wireWordCount_of_ne_sizeMax hmax).1, hfits, hwords, hversion, ?_, rfl, rfl⟩
  have havailable : wireWordCount (announcedSize received) ≤ received.length - 4 := hfits
  rw [List.length_cons, length_readWords]
  change 1 + (received.length - 4) - wireWordCount (announcedSize received) - 1 + 1 = _
  omega

/-! ## Success -/

/-- A receiver that read the message with this program and returned this reply has
what the message carries: the announced bytes, at most 64 words, and nothing from
registers behind the end of the message. -/
structure WellReceived (program : Program UInt64 (Except FacetError RpcMessage))
    (received : Sel4Received) (reply : RpcMessage) : Prop where
  payload_length : (reply.payload.getD []).length = reply.payloadSize
  payload_taken : TakenFrom received (reply.payload.getD [])
  words_le : reply.words.length ≤ 64
  reads_lt : ∀ index ∈ program.reads received.registers, index < received.length

/-- The announced payload is empty, stands in an announced frame, or fits the
registers of the message. -/
def PayloadPresent (received : Sel4Received) : Prop :=
  announcedSize received = 0 ∨
    if sharedPayload (announcedFlags received) then bufferCount (announcedFlags received) ≠ 0
    else wireWordCount (announcedSize received) ≤ received.length - 4

instance (received : Sel4Received) : Decidable (PayloadPresent received) :=
  inferInstanceAs (Decidable (_ ∨ _))

theorem payloadPresent_of_inline (hclear : sharedPayload (announcedFlags received) = false)
    (hsize : announcedSize received ≠ 0) :
    PayloadPresent received ↔ Inline received := by
  simp [PayloadPresent, Inline, announcedWords, hclear, hsize]

section

variable {abi : Sel4Abi} {reply : RpcMessage}

/-- A payload in the registers is there exactly when the message has room for it. -/
theorem length_registerReply_iff (hframes : bufferCount (announcedFlags received) = 0) :
    ((registerReply received).payload.getD []).length = announcedSize received ↔
      PayloadPresent received := by
  by_cases hsize : announcedSize received = 0
  · have hnone : ¬ Inline received := fun hinline => hinline.2.1 hsize
    simp [registerReply, hnone, PayloadPresent, hsize]
  cases hshared : sharedPayload (announcedFlags received) with
  | true =>
    have hnone : ¬ Inline received := fun hinline => by simp [Inline, hshared] at hinline
    simp [registerReply, hnone, PayloadPresent, hsize, hshared, hframes, Ne.symm hsize]
  | false =>
    rw [payloadPresent_of_inline hshared hsize]
    by_cases hinline : Inline received
    · simp [registerReply, hinline]
    · simp [registerReply, hinline, Ne.symm hsize]

theorem takenFrom_registerReply (hannounced : Announced received) (hcontrol : 4 ≤ received.length) :
    TakenFrom received ((registerReply received).payload.getD []) := by
  by_cases hinline : Inline received
  · have hwords : announcedWords received = wordCount wordBytes (announcedSize received) :=
      payloadWords_of_inline hannounced.words_ne hinline
    have hfits := hinline.2.2
    refine Or.inl ⟨4 + (1 + (received.length - 4 - announcedWords received)) - 1, ?_, ?_⟩
    · simp only [registerReply, hinline, if_true, Option.getD_some, length_readPayload]
      omega
    · simp [registerReply, hinline]
  · have hnone : (registerReply received).payload = none := if_neg hinline
    rw [hnone]
    exact takenFrom_nil received

theorem wellReceived_remoteCall_iff (hok : remoteCall abi received = .ok reply) :
    WellReceived (remoteCallProgram abi received.length received.caps) received reply ↔
      4 ≤ received.length ∧ PayloadPresent received := by
  obtain ⟨hannounced, hwords, hsize, hpayload⟩ := remoteCall_eq_ok hok
  have hreads := reads_remoteCallProgram_lt_iff abi hannounced
  have hlength : reply.words.length ≤ 64 := by
    rw [hwords, length_words_registerReply]
    exact hannounced.words_le
  constructor
  · intro hwell
    refine ⟨hreads.mp hwell.reads_lt, ?_⟩
    cases hpayload with
    | inl hregisters =>
      rw [← length_registerReply_iff hregisters.1, ← hregisters.2, ← hsize]
      exact hwell.payload_length
    | inr hframe =>
      exact .inr (by simpa [sharedPayload_of_bufferCount hframe.1] using hframe.1)
  · rintro ⟨hcontrol, hpresent⟩
    cases hpayload with
    | inl hregisters =>
      refine ⟨?_, ?_, hlength, hreads.mpr hcontrol⟩
      · rw [hregisters.2, hsize]
        exact (length_registerReply_iff hregisters.1).mpr hpresent
      · rw [hregisters.2]
        exact takenFrom_registerReply hannounced hcontrol
    | inr hframe =>
      obtain ⟨-, bytes, hbytes, hcount, hpage⟩ := hframe
      refine ⟨?_, ?_, hlength, hreads.mpr hcontrol⟩
      · rw [hbytes, Option.getD_some, hcount, hsize]
      · rw [hbytes]
        exact Or.inr hpage

/-- The registers that the client reads of a message that it accepts. -/
theorem reads_libfacetPlatformReplyProgram_lt (hok : libfacetPlatformReply received = .ok reply) :
    ∀ index ∈ (libfacetPlatformReplyProgram received.length received.caps).reads
      received.registers, index < received.length := by
  obtain ⟨hcaps, hcontrol, hclear, hinline, -, hfits, hwords, hversion, -⟩ :=
    libfacetPlatformReply_eq_ok hok
  have hpayload : ¬ (sharedPayload (received.registers 2).toUInt32 = true ∨
      (received.registers 3).toNat > rpcMaxInlinePayload) := by
    rw [not_or]
    exact ⟨Bool.eq_false_iff.mp hclear, Nat.not_lt.mpr hinline⟩
  have hroom : ¬ (wireWordCount (received.registers 3).toNat = sizeMax ∨
      wireWordCount (received.registers 3).toNat > received.length - 4) := by
    rw [not_or]
    refine ⟨fun hmax => ?_, Nat.not_lt.mpr hfits⟩
    obtain ⟨hcount, hbound⟩ := wireWordCount_of_inline hinline
    change wireWordCount (announcedSize received) = sizeMax at hmax
    rw [hcount, sizeMax] at hmax
    omega
  have hfew : ¬ 1 + (received.length - 4) - wireWordCount (received.registers 3).toNat >
      rpcMaxWords := Nat.not_lt.mpr hwords
  rw [libfacetPlatformReplyProgram, if_neg (Nat.not_lt.mpr hcaps),
    if_neg (Nat.not_lt.mpr hcontrol)]
  simp only [reads_getRegister_bind, if_neg hpayload, if_neg hroom, if_neg hfew]
  simp only [Program.reads_bind, reads_getRegisters, if_neg (not_not.mpr hversion),
    reads_getPacked, Program.reads_pure, List.append_nil]
  intro index hindex
  simp only [List.mem_cons, List.mem_append] at hindex
  rcases hindex with rfl | rfl | rfl | rfl | hword | hpacked
  iterate 4 omega
  · have hrange := List.mem_range'_1.mp hword
    omega
  · split at hpacked
    · have hrange := List.mem_range'_1.mp hpacked
      omega
    · cases hpacked

theorem wellReceived_libfacetPlatformReply (hok : libfacetPlatformReply received = .ok reply) :
    WellReceived (libfacetPlatformReplyProgram received.length received.caps) received reply := by
  have hreads := reads_libfacetPlatformReplyProgram_lt hok
  obtain ⟨-, hcontrol, -, -, hcount, hfits, hwordsMax, -, hwords, hsize, hpayload⟩ :=
    libfacetPlatformReply_eq_ok hok
  by_cases hempty : announcedSize received = 0
  · rw [if_neg (not_not.mpr hempty)] at hpayload
    refine ⟨?_, ?_, hwords.trans_le hwordsMax, hreads⟩
    · rw [hpayload, hsize, hempty]
      rfl
    · rw [hpayload]
      exact takenFrom_nil received
  · rw [if_pos hempty] at hpayload
    refine ⟨?_, ?_, hwords.trans_le hwordsMax, hreads⟩
    · rw [hpayload, Option.getD_some, length_readPayload, hsize]
    · rw [hpayload, Option.getD_some]
      refine Or.inl ⟨_, ?_, by rw [length_readPayload]⟩
      rw [length_readPayload, ← hcount]
      omega

end

/-- Whatever message arrives: a reply that the client returns with success is well
received.  One that `remote_call` returns with success is so exactly if the message
has its four control registers and the announced payload is present in it. -/
theorem accepted_replies_iff (abi : Sel4Abi) (received : Sel4Received) (reply : RpcMessage) :
    ((remoteCallProgram abi received.length received.caps).run received.registers = .ok reply →
      (WellReceived (remoteCallProgram abi received.length received.caps) received reply ↔
        4 ≤ received.length ∧ PayloadPresent received)) ∧
      ((libfacetPlatformReplyProgram received.length received.caps).run received.registers =
          .ok reply →
        WellReceived (libfacetPlatformReplyProgram received.length received.caps) received
          reply) := by
  rw [run_remoteCallProgram, run_libfacetPlatformReplyProgram]
  exact ⟨wellReceived_remoteCall_iff, wellReceived_libfacetPlatformReply⟩

/-- A message of this length over the control registers of a successful reply with
this payload size. -/
def controlMessage (length size : ℕ) : Sel4Received where
  length := length
  registers index :=
    if index = 1 then rpcProtocolVersion.toUInt64
    else if index = 3 then UInt64.ofNat size
    else 0
  caps := []

theorem accepted_replies_byte : ∃ reply,
    (remoteCallProgram x86Abi 5 []).run (controlMessage 5 1).registers = .ok reply ∧
      WellReceived (remoteCallProgram x86Abi 5 []) (controlMessage 5 1) reply := by
  have hok : (remoteCallProgram x86Abi 5 []).run (controlMessage 5 1).registers =
      .ok (registerReply (controlMessage 5 1)) := by
    rfl
  exact ⟨_, hok, ((accepted_replies_iff x86Abi (controlMessage 5 1) _).1 hok).mpr (by decide)⟩

/-- A message without registers, and one that announces a payload it does not carry,
are returned with success. -/
theorem malformed_replies_accepted :
    (∃ reply, remoteCall x86Abi (controlMessage 0 0) = .ok reply ∧
      3 ∈ (remoteCallProgram x86Abi 0 []).reads (controlMessage 0 0).registers) ∧
      ∃ reply, remoteCall x86Abi (controlMessage 4 8) = .ok reply ∧
        reply.payloadSize = 8 ∧ reply.payload = none := by
  refine ⟨⟨registerReply (controlMessage 0 0), rfl, by decide⟩,
    registerReply (controlMessage 4 8), rfl, rfl, rfl⟩

end FacetOS.Transport
