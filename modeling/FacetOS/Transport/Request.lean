import FacetOS.Transport.Frame

/-!
# Request framing on seL4 message registers

Two senders turn a request into message registers: `messageFromRequest`, used by
the processes that own a full platform, and the request half of
`libfacetPlatformCall`, used by ordinary clients.  Two receivers read such a
message back: `requestFromMessage` in the platform's server threads and
`decodeRequest` in the single-endpoint service loop.

Registers 0 to 3 hold the method, the protocol version, the flags and the
payload size; the argument words and then the packed payload follow.
-/

namespace FacetOS.Transport

open LittleEndian Passes Registers Rpc

/-- The four control registers of a request. -/
def requestControl (request : RpcMessage) : List UInt64 :=
  [request.methodId.toUInt64, request.protocolVersion.toUInt64,
    request.flags.toUInt64, UInt64.ofNat request.payloadSize]

/-! ## Senders -/

def messageFromRequest (abi : Sel4Abi) (request : RpcMessage) :
    Except FacetError Sel4Message :=
  let wordCount := request.words.length
  let payloadWords :=
    if sharedPayload request.flags then 0 else wireWordCount request.payloadSize
  if wordCount > rpcMaxWords ∨ payloadWords = sizeMax ∨
      wordCount > sizeMax - payloadWords - 3 ∨
      wordCount + payloadWords + 3 > abi.msgMaxLength ∨
      request.attachments.length > sel4MaxAttachments ∨ ¬ request.HasPayload then
    .error .invalidArgument
  else
    .ok {
      length := wordCount + payloadWords + 4
      writes := blockWrites 0 (requestControl request) ++ blockWrites 4 request.words ++
        blockWrites (wordCount + 4) (payloadRegisters request.payloadBytes payloadWords)
      caps := request.attachments.map FacetRpcAttachment.handle }

/-- The part of `libfacet_platform_call` that sends the request. -/
def libfacetPlatformCall (abi : Sel4Abi) (request : RpcMessage) :
    Except FacetError Sel4Message :=
  let wordCount := request.words.length
  let payloadWords := wireWordCount request.payloadSize
  if ¬ request.HasPayload ∨ request.attachments.length > rpcMaxAttachments ∨
      request.attachments.length > abi.msgMaxExtraCaps ∨ payloadWords = sizeMax ∨
      request.payloadSize > rpcMaxInlinePayload ∨ wordCount > rpcMaxWords ∨
      wordCount > abi.msgMaxLength - 4 ∨
      payloadWords > abi.msgMaxLength - 4 - wordCount then
    .error .notSupported
  else if request.attachments.any fun attachment =>
      attachment.kind != .handle || attachment.handle == none then
    .error .notSupported
  else
    .ok {
      length := 4 + wordCount + payloadWords
      writes := blockWrites 4 request.words ++ blockWrites 0 (requestControl request) ++
        blockWrites (4 + wordCount) (payloadRegisters request.payloadBytes payloadWords)
      caps := request.attachments.map FacetRpcAttachment.handle }

/-! ## Receivers -/

def requestFromMessage (abi : Sel4Abi) (received : Sel4Received) :
    Except FacetError RpcMessage :=
  let methodId := (received.registers 0).toUInt32
  let protocolVersion := (received.registers 1).toUInt32
  let flags := (received.registers 2).toUInt32
  let payloadSize := (received.registers 3).toNat
  let payloadWords := if sharedPayload flags then 0 else wireWordCount payloadSize
  let available := received.length - 4
  let wordCount := available - payloadWords
  if protocolVersion ≠ rpcProtocolVersion then .error .protocolError
  else if payloadWords = sizeMax then .error .protocolError
  else if available < payloadWords ∨ payloadWords > abi.msgMaxLength - 4 then
    .error .protocolError
  else if sharedPayload flags = false ∧ payloadSize > abi.msgMaxLength * wordBytes then
    .error .protocolError
  else if wordCount > rpcMaxWords then .error .protocolError
  else
    .ok {
      protocolVersion := protocolVersion
      methodId := methodId
      flags := flags
      words := readWords received 4 wordCount
      payload :=
        if sharedPayload flags = false ∧ payloadSize ≠ 0 then
          some (readPayload received (4 + wordCount) payloadSize)
        else none
      payloadSize := payloadSize
      -- The server thread fills in the received capabilities afterwards.
      attachments := []
      payload_readable := readable_ite (length_readPayload ..) }

def decodeRequest (received : Sel4Received) : Except FacetError RpcMessage :=
  let methodId := (received.registers 0).toUInt32
  let protocolVersion := (received.registers 1).toUInt32
  let flags := (received.registers 2).toUInt32
  let payloadSize := (received.registers 3).toNat
  let payloadWords := wireWords payloadSize
  let wordCount := received.length - 4 - payloadWords
  if received.length < 4 then .error .protocolError
  else if protocolVersion ≠ rpcProtocolVersion ∨ payloadSize > rpcMaxInlinePayload then
    .error .protocolError
  else if payloadWords > received.length - 4 then .error .protocolError
  else if wordCount > rpcMaxWords then .error .protocolError
  else if received.caps.length > 1 then .error .protocolError
  else
    .ok {
      protocolVersion := protocolVersion
      methodId := methodId
      flags := flags
      words := readWords received 4 wordCount
      payload :=
        if payloadSize ≠ 0 then some (readPayload received (4 + wordCount) payloadSize)
        else none
      payloadSize := payloadSize
      attachments := received.caps.map fun cap => ⟨.handle, cap, 0⟩
      payload_readable := readable_ite (length_readPayload ..) }

/-! ## Every accepted request is framed -/

/-- The four control registers of a request have their fixed places. -/
theorem length_requestControl (request : RpcMessage) :
    (requestControl request).length = 4 := rfl

/-- The registers of a message hold this request. -/
abbrev FramesRequest (message : Sel4Message) (request : RpcMessage) : Prop :=
  Frames message (requestControl request) request.words request.payloadBytes

variable {abi : Sel4Abi} {request : RpcMessage}

/-- No payload of the request is announced as shared. -/
def SentInline (request : RpcMessage) : Prop :=
  sharedPayload request.flags = false ∨ request.payloadSize = 0

theorem inline_payloadWords (hinline : SentInline request) :
    (if sharedPayload request.flags = true then 0 else wireWordCount request.payloadSize) =
      wireWordCount request.payloadSize := by
  rcases hinline with hflag | hsize
  · simp [hflag]
  · rw [hsize]
    split <;> rfl

/-- The payload bytes that `messageFromRequest` puts into registers. -/
def inlineBytes (request : RpcMessage) : List UInt8 :=
  if sharedPayload request.flags then [] else request.payloadBytes

variable {message : Sel4Message}

/-- What `messageFromRequest` checks, and what it sends, for a request whose
payload travels inline. -/
theorem messageFromRequest_eq_ok (hinline : SentInline request)
    (hok : messageFromRequest abi request = .ok message) :
    request.HasPayload ∧ request.payloadSize < 2 ^ 64 ∧
      request.words.length ≤ rpcMaxWords ∧ FramesRequest message request := by
  simp only [messageFromRequest, inline_payloadWords hinline] at hok
  split at hok
  · cases hok
  rename_i hchecks
  simp only [not_or, not_not] at hchecks
  obtain ⟨hwords, hmax, -, -, -, hpayload⟩ := hchecks
  obtain ⟨hcount, hsize⟩ := wireWordCount_of_ne_sizeMax hmax
  have hlength := FacetRpcMessage.length_payloadBytes hpayload
  cases hok
  refine ⟨hpayload, hsize, by omega, ?_⟩
  rw [hcount, ← hlength, Nat.add_comm request.words.length 4]
  exact frames_mk _ rfl (by omega)

/-- Every accepted request is framed with its inline bytes and its handles. -/
theorem messageFromRequest_frames (hok : messageFromRequest abi request = .ok message) :
    Frames message (requestControl request) request.words (inlineBytes request)
      ∧ message.caps = request.attachments.map FacetRpcAttachment.handle := by
  have hmessage := (ite_error_eq_ok.mp hok).2
  refine ⟨?_, (congrArg Sel4Message.caps (Except.ok.inj hmessage)).symm⟩
  cases hshared : sharedPayload request.flags with
  | false =>
    rw [inlineBytes, if_neg (by simp [hshared])]
    exact (messageFromRequest_eq_ok (.inl hshared) hok).2.2.2
  | true =>
    rw [inlineBytes, if_pos hshared]
    obtain rfl := Except.ok.inj hmessage
    rw [if_pos hshared, Nat.add_comm request.words.length 4]
    exact @frames_mk [] _ _ _ _ (length_requestControl request) rfl

/-- The client writes the words before the control registers; the frame is the
same. -/
theorem libfacetPlatformCall_eq_ok (hok : libfacetPlatformCall abi request = .ok message) :
    request.HasPayload ∧ request.payloadSize < 2 ^ 64 ∧
      request.words.length ≤ rpcMaxWords ∧ message.length ≤ abi.msgMaxLength ∧
      FramesRequest message request := by
  simp only [libfacetPlatformCall] at hok
  split at hok
  · cases hok
  rename_i hchecks
  split at hok
  · cases hok
  simp only [not_or, not_not] at hchecks
  obtain ⟨hpayload, -, -, hmax, -, hwords, hroom, hfit⟩ := hchecks
  obtain ⟨hcount, hsize⟩ := wireWordCount_of_ne_sizeMax hmax
  have hlength := FacetRpcMessage.length_payloadBytes hpayload
  have hcontrol := abi.control_le
  have htotal : message.length =
      4 + request.words.length + wordCount wordBytes request.payloadBytes.length := by
    cases hok
    rw [hlength, hcount]
  have hwrites (stale : ℕ → UInt64) : applyWrites message.writes stale =
      applyWrites (frameWrites (requestControl request) request.words
        request.payloadBytes) stale := by
    have hcomm := applyWrites_comm (blockWrites 4 request.words)
      (blockWrites 0 (requestControl request)) (by
        intro left hleft right hright
        have hleftBounds := mem_blockWrites_bounds hleft
        have hrightBounds := mem_blockWrites_bounds hright
        rw [length_requestControl] at hrightBounds
        omega) stale
    cases hok
    rw [frameWrites, hlength, hcount, applyWrites_append, hcomm, ← applyWrites_append]
  refine ⟨hpayload, hsize, by omega, ?_, frames_of_applyWrites_eq rfl htotal ?_ hwrites⟩
  · rw [htotal, hlength, ← hcount]
    omega
  intro write hwrite
  rw [htotal]
  apply mem_frameWrites_lt (length_requestControl request)
  cases hok
  rw [frameWrites, hlength, ← hcount]
  simp only [List.mem_append] at hwrite ⊢
  tauto

/-! ## Receivers read the frame back -/

/-- The parts of a request that framing has to preserve. -/
structure SameRequest (request received : RpcMessage) : Prop where
  methodId : received.methodId = request.methodId
  flags : received.flags = request.flags
  words : received.words = request.words
  payloadBytes : received.payloadBytes = request.payloadBytes

section Received

variable {message : Sel4Message}

/-- The control registers of a framed request, as a receiver decodes them. -/
theorem control_of_frames {words : List UInt64} {bytes : List UInt8}
    (hframes : Frames message (requestControl request) words bytes)
    (hsize : request.payloadSize < 2 ^ 64) (stale : ℕ → UInt64) :
    ((message.deliver stale).registers 0).toUInt32 = request.methodId ∧
      ((message.deliver stale).registers 1).toUInt32 = request.protocolVersion ∧
      ((message.deliver stale).registers 2).toUInt32 = request.flags ∧
      ((message.deliver stale).registers 3).toNat = request.payloadSize := by
  obtain ⟨hmethod, hothers⟩ := hframes.decoded hsize stale
  exact ⟨by rw [hmethod, UInt32.toUInt32_toUInt64], hothers⟩

variable (hframes : FramesRequest message request) (hpayload : request.HasPayload)
include hframes hpayload

theorem length_of_frames : message.length =
    4 + request.words.length + wordCount wordBytes request.payloadSize := by
  rw [hframes.length_eq, FacetRpcMessage.length_payloadBytes hpayload]

/-- A receiver that counts the payload registers right reads the words and bytes. -/
theorem contents_of_frames (stale : ℕ → UInt64) {payloadWords : ℕ}
    (hcount : payloadWords = wordCount wordBytes request.payloadSize) :
    readWords (message.deliver stale) 4 (message.length - 4 - payloadWords) = request.words ∧
      ((if request.payloadSize ≠ 0 then some (readPayload (message.deliver stale)
          (4 + (message.length - 4 - payloadWords)) request.payloadSize)
        else none).getD []).take request.payloadSize = request.payloadBytes := by
  have hwords : message.length - 4 - payloadWords = request.words.length := by
    rw [length_of_frames hframes hpayload, hcount]
    omega
  have hbytes := payload_of_frames hframes stale
  rw [FacetRpcMessage.length_payloadBytes hpayload] at hbytes
  rw [hwords]
  exact ⟨readWords_of_frames hframes stale, hbytes⟩

variable {stale : ℕ → UInt64} (hsize : request.payloadSize < 2 ^ 64)
include hsize

theorem requestFromMessage_same {received : RpcMessage} (hinline : SentInline request)
    (hok : requestFromMessage abi (message.deliver stale) = .ok received) :
    SameRequest request received := by
  obtain ⟨hmethod, hversion, hflags, hregister⟩ := control_of_frames hframes hsize stale
  have hboth : (sharedPayload request.flags = false ∧ request.payloadSize ≠ 0) ↔
      request.payloadSize ≠ 0 :=
    and_iff_right_of_imp hinline.resolve_right
  simp only [requestFromMessage, hmethod, hversion, hflags, hregister,
    inline_payloadWords hinline, hboth, ite_error_eq_ok, Except.ok.injEq] at hok
  obtain ⟨-, hmax, -, -, -, rfl⟩ := hok
  have hcount := (wireWordCount_of_ne_sizeMax hmax).1
  obtain ⟨hwords, hbytes⟩ := contents_of_frames hframes hpayload stale hcount
  exact ⟨rfl, rfl, hwords, hbytes⟩

theorem decodeRequest_same {received : RpcMessage}
    (hok : decodeRequest (message.deliver stale) = .ok received) :
    SameRequest request received := by
  obtain ⟨hmethod, hversion, hflags, hregister⟩ := control_of_frames hframes hsize stale
  simp only [decodeRequest, hmethod, hversion, hflags, hregister, ite_error_eq_ok, not_or,
    not_lt, gt_iff_lt, Except.ok.injEq] at hok
  obtain ⟨-, ⟨-, hsmall⟩, -, -, -, rfl⟩ := hok
  obtain ⟨hwords, hbytes⟩ :=
    contents_of_frames hframes hpayload stale (wireWords_of_inline hsmall)
  exact ⟨rfl, rfl, hwords, hbytes⟩

variable (stale) in
theorem requestFromMessage_accepts (hinline : SentInline request)
    (hversion : request.protocolVersion = rpcProtocolVersion)
    (hmax : wireWordCount request.payloadSize ≠ sizeMax)
    (hwords : request.words.length ≤ rpcMaxWords)
    (hlength : message.length ≤ abi.msgMaxLength) :
    ∃ received, requestFromMessage abi (message.deliver stale) = .ok received := by
  obtain ⟨hmethod, hregisterVersion, hflags, hregister⟩ := control_of_frames hframes hsize stale
  have hcount := (wireWordCount_of_ne_sizeMax hmax).1
  have htotal : (message.deliver stale).length =
      4 + request.words.length + wordCount wordBytes request.payloadSize :=
    length_of_frames hframes hpayload
  have hroom : (message.deliver stale).length ≤ abi.msgMaxLength := hlength
  have hinlineBuffer : ¬ request.payloadSize > abi.msgMaxLength * wordBytes := by
    rw [not_lt, Nat.mul_comm]
    exact (le_width_mul_wordCount _ (by decide)).trans (Nat.mul_le_mul_left _ (by omega))
  simp only [requestFromMessage, hmethod, hregisterVersion, hflags, hregister,
    inline_payloadWords hinline]
  rw [if_neg (not_not.mpr hversion), if_neg hmax, if_neg (by omega),
    if_neg fun hlarge => hinlineBuffer hlarge.2, if_neg (by omega)]
  exact ⟨_, rfl⟩

omit hsize in
theorem decodeRequest_accepts (hversion : request.protocolVersion = rpcProtocolVersion)
    (hsize : request.payloadSize ≤ rpcMaxInlinePayload)
    (hwords : request.words.length ≤ rpcMaxWords) (hcaps : message.caps.length ≤ 1) :
    ∃ received, decodeRequest (message.deliver stale) = .ok received := by
  have hsmall : request.payloadSize ≤ 512 := hsize
  obtain ⟨hmethod, hregisterVersion, hflags, hregister⟩ :=
    control_of_frames hframes (by omega) stale
  have hcount := wireWords_of_inline hsize
  have htotal : (message.deliver stale).length =
      4 + request.words.length + wordCount wordBytes request.payloadSize :=
    length_of_frames hframes hpayload
  have hreceivedCaps : ¬ (message.deliver stale).caps.length > 1 := not_lt.mpr hcaps
  simp only [decodeRequest, hmethod, hregisterVersion, hflags, hregister]
  rw [if_neg (by omega), if_neg (by simp [hversion, hsize]), if_neg (by omega),
    if_neg (by omega), if_neg hreceivedCaps]
  exact ⟨_, rfl⟩

end Received

/-! ## Payloads that are announced as shared -/

section Shared

variable {message : Sel4Message} {bytes : List UInt8} {received : RpcMessage}
  (hframes : Frames message (requestControl request) request.words bytes) (stale : ℕ → UInt64)
include hframes

theorem version_of_frames :
    ((message.deliver stale).registers 1).toUInt32 = request.protocolVersion :=
  (congrArg UInt64.toUInt32 (hframes.control_read stale 1 _ rfl)).trans
    (UInt32.toUInt32_toUInt64 _)

theorem decodeRequest_version (hok : decodeRequest (message.deliver stale) = .ok received) :
    request.protocolVersion = rpcProtocolVersion := by
  simp only [decodeRequest, version_of_frames hframes, ite_error_eq_ok, not_or, not_not] at hok
  exact hok.2.1.1

/-- A server thread that takes the payload for shared counts all registers as words.  It
reads no payload bytes. -/
theorem requestFromMessage_shared (hshared : sharedPayload request.flags = true) :
    (∀ received, requestFromMessage abi (message.deliver stale) = .ok received →
      request.protocolVersion = rpcProtocolVersion ∧ message.length ≤ 4 + rpcMaxWords ∧
        received.payloadBytes = []) ∧
      (request.protocolVersion = rpcProtocolVersion → message.length ≤ 4 + rpcMaxWords →
        ∃ received, requestFromMessage abi (message.deliver stale) = .ok received) := by
  have hflags : ((message.deliver stale).registers 2).toUInt32 = request.flags :=
    (congrArg UInt64.toUInt32 (hframes.control_read stale 2 _ rfl)).trans
      (UInt32.toUInt32_toUInt64 _)
  have hlength : (message.deliver stale).length = message.length := rfl
  have hzero : ¬ 0 = sizeMax := by decide
  simp only [requestFromMessage, version_of_frames hframes, hflags, hshared, hlength, if_true,
    Bool.true_eq_false, false_and, if_false, Nat.sub_zero, Nat.not_lt_zero, gt_iff_lt, or_self,
    hzero]
  constructor
  · intro received hok
    simp only [ite_error_eq_ok, Except.ok.injEq] at hok
    obtain ⟨hcurrent, hwords, rfl⟩ := hok
    exact ⟨not_not.mp hcurrent, by omega, by simp [FacetRpcMessage.payloadBytes]⟩
  · intro hcurrent hwords
    rw [if_neg (not_not.mpr hcurrent), if_neg (by omega)]
    exact ⟨_, rfl⟩

end Shared

/-! ## Framing of requests -/

inductive RequestSender
  | messageFromRequest
  | libfacetPlatformCall
  deriving DecidableEq

def RequestSender.send (abi : Sel4Abi) :
    RequestSender → RpcMessage → Except FacetError Sel4Message
  | .messageFromRequest => Transport.messageFromRequest abi
  | .libfacetPlatformCall => Transport.libfacetPlatformCall abi

inductive RequestReceiver
  | requestFromMessage
  | decodeRequest
  deriving DecidableEq

def RequestReceiver.receive (abi : Sel4Abi) :
    RequestReceiver → Sel4Received → Except FacetError RpcMessage
  | .requestFromMessage => Transport.requestFromMessage abi
  | .decodeRequest => Transport.decodeRequest

/-- A message stays inside the message registers, and whatever receiver accepts
it finds the request again. -/
structure WellFramed (abi : Sel4Abi) (request : RpcMessage)
    (message : Sel4Message) : Prop where
  length_le : message.length ≤ abi.msgMaxLength
  writes_lt : ∀ write ∈ message.writes, write.1 < abi.msgMaxLength
  received : ∀ (receiver : RequestReceiver) stale received,
    receiver.receive abi (message.deliver stale) = .ok received →
      SameRequest request received

/-- The payload bytes that a sender puts into registers. -/
def RequestSender.bytes (request : RpcMessage) : RequestSender → List UInt8
  | .messageFromRequest => inlineBytes request
  | .libfacetPlatformCall => request.payloadBytes

/-- The registers that a sender uses: control words, argument words and payload words. -/
def RequestSender.registers (sender : RequestSender) (request : RpcMessage) : ℕ :=
  4 + request.words.length + wordCount wordBytes (sender.bytes request).length

/-- The control words, argument words and payload words of an inline request fit
the message registers. -/
def FitsMessage (abi : Sel4Abi) (request : RpcMessage) : Prop :=
  4 + request.words.length + wordCount wordBytes request.payloadSize ≤ abi.msgMaxLength

instance (abi : Sel4Abi) (request : RpcMessage) :
    Decidable (FitsMessage abi request) :=
  inferInstanceAs (Decidable (_ ≤ _))

/-- A request within the limits that both ends announce: the current version, at
most 64 words and 512 payload bytes, and at most one attachment, a handle. -/
structure WithinLimits (abi : Sel4Abi) (request : RpcMessage) : Prop where
  version : request.protocolVersion = rpcProtocolVersion
  hasPayload : request.HasPayload
  words_le : request.words.length ≤ rpcMaxWords
  payload_le : request.payloadSize ≤ rpcMaxInlinePayload
  attachments_le : request.attachments.length ≤ 1
  extraCaps_le : request.attachments.length ≤ abi.msgMaxExtraCaps
  attachments_handle : ∀ attachment ∈ request.attachments,
    attachment.kind = .handle ∧ attachment.handle ≠ none

/-- Either sender frames the requests that it accepts. -/
theorem RequestSender.send_frames {sender : RequestSender} {message : Sel4Message}
    (hsend : sender.send abi request = .ok message) :
    request.HasPayload ∧ request.words.length ≤ rpcMaxWords ∧
      Frames message (requestControl request) request.words (sender.bytes request) ∧
      (sender = .libfacetPlatformCall ∨ SentInline request →
        request.payloadSize < 2 ^ 64 ∧ FramesRequest message request) := by
  cases sender with
  | messageFromRequest =>
    have hchecks := (ite_error_eq_ok.mp hsend).1
    simp only [not_or, not_not, not_lt, gt_iff_lt] at hchecks
    refine ⟨hchecks.2.2.2.2.2, hchecks.1, (messageFromRequest_frames hsend).1, ?_⟩
    rintro (hother | hinline)
    · cases hother
    · obtain ⟨-, hsize, -, hframes⟩ := messageFromRequest_eq_ok hinline hsend
      exact ⟨hsize, hframes⟩
  | libfacetPlatformCall =>
    obtain ⟨hpayload, hsize, hwords, -, hframes⟩ := libfacetPlatformCall_eq_ok hsend
    exact ⟨hpayload, hwords, hframes, fun _ => ⟨hsize, hframes⟩⟩

/-- A request within the limits that fits the message is accepted by both
senders, with its attachments as capabilities. -/
theorem RequestSender.send_accepts
    (hlimits : WithinLimits abi request) (hfits : FitsMessage abi request)
    (hinline : SentInline request) (sender : RequestSender) :
    ∃ message, sender.send abi request = .ok message ∧
      message.caps = request.attachments.map FacetRpcAttachment.handle := by
  have hsize : request.payloadSize ≤ 512 := hlimits.payload_le
  have hwords : request.words.length ≤ 64 := hlimits.words_le
  have hattachments := hlimits.attachments_le
  have hcaps := hlimits.extraCaps_le
  obtain ⟨hcount, hbound⟩ := wireWordCount_of_inline hlimits.payload_le
  unfold FitsMessage at hfits
  cases sender with
  | messageFromRequest =>
    simp only [RequestSender.send, Transport.messageFromRequest, inline_payloadWords hinline]
    rw [hcount]
    rw [if_neg]
    · exact ⟨_, rfl, rfl⟩
    · simp only [not_or, not_not, rpcMaxWords, sizeMax, sel4MaxAttachments]
      exact ⟨by omega, by omega, by omega, by omega, by omega, hlimits.hasPayload⟩
  | libfacetPlatformCall =>
    simp only [RequestSender.send, Transport.libfacetPlatformCall, hcount]
    rw [if_neg, if_neg]
    · exact ⟨_, rfl, rfl⟩
    · simp only [List.any_eq_true, not_exists, not_and]
      intro attachment hattachment
      obtain ⟨hkind, hhandle⟩ := hlimits.attachments_handle attachment hattachment
      simp [hkind, hhandle]
    · simp only [not_or, not_not, rpcMaxWords, sizeMax, rpcMaxAttachments,
        rpcMaxInlinePayload]
      exact ⟨hlimits.hasPayload, by omega, by omega, by omega, by omega, by omega,
        by omega, by omega⟩

/-- A payload that is announced as shared is not taken for one: there is none, or the
server threads refuse the message, for its version or because they count more than 64
words. -/
def RequestSender.ReadBack (sender : RequestSender) (request : RpcMessage) : Prop :=
  SentInline request ∨ request.protocolVersion ≠ rpcProtocolVersion ∨
    4 + rpcMaxWords < sender.registers request

/-- What the receivers accept of a framed request is the request. -/
theorem RequestSender.received_iff {sender : RequestSender} {message : Sel4Message}
    (hsend : sender.send abi request = .ok message) :
    (∀ (receiver : RequestReceiver) stale received,
      receiver.receive abi (message.deliver stale) = .ok received →
        SameRequest request received) ↔ sender.ReadBack request := by
  obtain ⟨hpayload, hwords, hframes, hwhole⟩ := send_frames hsend
  by_cases hinline : SentInline request
  · obtain ⟨hsize, hrequest⟩ := hwhole (.inr hinline)
    refine iff_of_true ?_ (.inl hinline)
    intro receiver stale received hreceive
    cases receiver with
    | requestFromMessage => exact requestFromMessage_same hrequest hpayload hsize hinline hreceive
    | decodeRequest => exact decodeRequest_same hrequest hpayload hsize hreceive
  · obtain ⟨hshared, hsome⟩ := not_or.mp hinline
    rw [Bool.not_eq_false] at hshared
    rw [ReadBack, or_iff_right hinline, registers, ← hframes.length_eq]
    constructor
    · intro hsame
      by_contra hrefused
      obtain ⟨hversion, hlength⟩ := not_or.mp hrefused
      obtain ⟨received, hok⟩ := (requestFromMessage_shared hframes (fun _ => 0)
        hshared).2 (not_not.mp hversion) (Nat.le_of_not_lt hlength)
      have hbytes := (hsame .requestFromMessage _ received hok).payloadBytes
      rw [((requestFromMessage_shared hframes _ hshared).1 received hok).2.2] at hbytes
      apply hsome
      rw [← FacetRpcMessage.length_payloadBytes hpayload, ← hbytes]
      rfl
    · intro hrefused receiver stale received hreceive
      cases receiver with
      | requestFromMessage =>
        obtain ⟨hversion, hlength, -⟩ :=
          (requestFromMessage_shared hframes stale hshared).1 received hreceive
        exact absurd hrefused (by simp [hversion, hlength])
      | decodeRequest =>
        -- only the payload words of `libfacetPlatformCall` can make the message long
        have hlong := hrefused.resolve_left (not_not.mpr (decodeRequest_version hframes _ hreceive))
        cases sender with
        | messageFromRequest =>
          rw [hframes.length_eq, bytes, inlineBytes, if_pos hshared] at hlong
          simp only [List.length_nil, wordCount, wordBytes] at hlong
          omega
        | libfacetPlatformCall =>
          obtain ⟨hsize, hrequest⟩ := hwhole (.inl rfl)
          exact decodeRequest_same hrequest hpayload hsize hreceive

/-- A request with `words` zero words and `bytes` zero payload bytes. -/
def zeroRequest (words bytes : ℕ) : RpcMessage where
  protocolVersion := rpcProtocolVersion
  methodId := 1
  flags := 0
  words := List.replicate words 0
  payload := some (List.replicate bytes 0)
  payloadSize := bytes
  attachments := []
  payload_readable := readable_replicate bytes

end FacetOS.Transport
