import FacetOS.Transport.Request
import FacetOS.Transport.Reply

/-!
# Calls to exported objects

A handle that the process exported itself is called by running its dispatcher
directly.  Any other handle is called by message: the request is framed and
sent, a server thread reads it back, runs the dispatcher and frames the reply,
and the caller reads that.  Both ways are compared here, for messages within the
limits of the protocol.
-/

namespace FacetOS.Transport

open LittleEndian Registers Rpc
open Passes (ite_error_eq_ok)

/-! ## Dispatchers -/

/-- What a dispatcher can read of a request: the bytes of the payload up to its
size, and the objects that the attached handles designate. -/
structure RequestView where
  protocolVersion : UInt32
  methodId : UInt32
  flags : UInt32
  words : List UInt64
  payloadSize : ℕ
  payload : List UInt8
  attachments : List (FacetRpcAttachmentKind × FacetHandle)
  deriving DecidableEq

/-- The kind and the object of every attachment. -/
def designated (message : RpcMessage) : List (FacetRpcAttachmentKind × FacetHandle) :=
  message.attachments.map fun attachment => (attachment.kind, attachment.handle)

def requestView (request : RpcMessage) : RequestView where
  protocolVersion := request.protocolVersion
  methodId := request.methodId
  flags := request.flags
  words := request.words
  payloadSize := request.payloadSize
  payload := request.payloadBytes
  attachments := designated request

/-- The dispatcher of an exported object with its context: a result code and the
reply it leaves. -/
abbrev Dispatch := RequestView → Int32 × RpcMessage

/-- What a call reads of the target handle: the method it is bound to, if any, and
the exported object behind it. -/
structure CallTarget where
  methodId : UInt32
  dispatch : Dispatch

/-- The request as it is passed on: a method of the handle takes precedence. -/
def actualRequest (methodId : UInt32) (request : RpcMessage) : RpcMessage :=
  if methodId ≠ 0 then { request with methodId := methodId } else request

/-! ## The two ways to call -/

/-- The reply's handles are cloned; a clone designates the same object. -/
def localCall (target : CallTarget) (request : RpcMessage) : Except FacetError RpcMessage :=
  let outcome := target.dispatch (requestView (actualRequest target.methodId request))
  .ok (withResult outcome.1 outcome.2)

/-- The request that a server thread hands to its dispatcher, or the error that it
reports. -/
def serverRequest (abi : Sel4Abi) (received : Sel4Received) : Except FacetError RpcMessage :=
  let caps := received.caps.take sel4MaxAttachments
  let buffers := bufferCount (received.registers 2).toUInt32
  if buffers > caps.length then .error .protocolError
  else
    match requestFromMessage abi received with
    | .error failure => .error failure
    | .ok request =>
      let attached := { request with attachments := receivedAttachments caps buffers }
      if buffers ≠ 0 then
        bulkReadReceived abi attached (caps.length - buffers) buffers
          (caps.drop (caps.length - buffers))
      else .ok attached

/-- The reply to a request that could not be read. -/
def failureReply (failure : FacetError) : RpcMessage where
  protocolVersion := rpcProtocolVersion
  methodId := 0
  flags := 0
  words := [resultWord failure.code]
  payload := none
  payloadSize := 0
  attachments := []
  payload_readable := readable_none

/-- One round of `facet_sel4_server_entry`. -/
def facetSel4ServerEntry (abi : Sel4Abi) (frame : Except FacetError Unit) (dispatch : Dispatch)
    (received : Sel4Received) : Sel4Message :=
  match serverRequest abi received with
  | .error failure => replyToMessage abi (failureReply failure)
  | .ok request =>
    let outcome := dispatch (requestView request)
    serverReply abi frame outcome.1 outcome.2

/-- The message registers that sender and server find before they write theirs, and
whether frames for shared payloads can be had. -/
structure Channel where
  staleRequest : ℕ → UInt64
  staleReply : ℕ → UInt64
  frame : Except FacetError Unit

/-- `remote_call`, with the server thread at the other end of the endpoint. -/
def remoteInvoke (abi : Sel4Abi) (channel : Channel) (target : CallTarget)
    (request : RpcMessage) : Except FacetError RpcMessage :=
  match bulkPrepare abi channel.frame (actualRequest target.methodId request) with
  | (.error failure, _) => .error failure
  | (.ok (), prepared) =>
    match messageFromRequest abi prepared with
    | .error failure => .error failure
    | .ok message =>
      let sent := facetSel4ServerEntry abi channel.frame target.dispatch
        (message.deliver channel.staleRequest)
      remoteCall abi (sent.deliver channel.staleReply)

/-! ## Requests within the limits -/

/-- The limits of the protocol for a request: 64 words, 512 payload bytes and one
handle. -/
structure RequestLimits (request : RpcMessage) : Prop where
  words_le : request.words.length ≤ rpcMaxWords
  payload_le : request.payloadSize ≤ rpcMaxInlinePayload
  attachments_le : request.attachments.length ≤ 1
  handles : ∀ attachment ∈ request.attachments,
    attachment.kind = .handle ∧ attachment.handle ≠ none

/-- The sender accepts the request and the server thread hands `received` to its
dispatcher. -/
def Arrives (abi : Sel4Abi) (stale : ℕ → UInt64) (request received : RpcMessage) : Prop :=
  request.HasPayload ∧ ∃ message, messageFromRequest abi request = .ok message
    ∧ serverRequest abi (message.deliver stale) = .ok received

variable {stale : ℕ → UInt64}

section Requests

variable {abi : Sel4Abi} {request received : RpcMessage} {message : Sel4Message}

/-- What a server thread reads of a framed request. -/
theorem requestFromMessage_eq_ok
    (hframes : Frames message (requestControl request) request.words (inlineBytes request))
    (hpayload : request.HasPayload) (hsize : request.payloadSize ≤ rpcMaxInlinePayload)
    (hok : requestFromMessage abi (message.deliver stale) = .ok received) :
    received.protocolVersion = request.protocolVersion
      ∧ received.methodId = request.methodId ∧ received.flags = request.flags
      ∧ received.words = request.words ∧ received.payloadSize = request.payloadSize
      ∧ received.payloadBytes = inlineBytes request := by
  have hsmall : request.payloadSize ≤ 512 := hsize
  obtain ⟨hmethod, hversion, hflags, hregister⟩ :=
    control_of_frames hframes (by omega) stale
  obtain ⟨hcount, -⟩ := wireWordCount_of_inline hsize
  have hinline : (inlineBytes request).length
      = if sharedPayload request.flags = true then 0 else request.payloadSize := by
    unfold inlineBytes
    split
    · rfl
    · exact FacetRpcMessage.length_payloadBytes hpayload
  have hwords : (message.deliver stale).length - 4
      - (if sharedPayload request.flags = true then 0 else wireWordCount request.payloadSize)
        = request.words.length := by
    change message.length - 4 - _ = _
    rw [hframes.length_eq, hinline, hcount]
    split
    · simp [wordCount, wordBytes]
    · omega
  have hbytes := payload_of_frames hframes stale
  rw [hinline] at hbytes
  simp only [requestFromMessage, hmethod, hversion, hflags, hregister, hwords] at hok
  iterate 5 replace hok := (ite_error_eq_ok.mp hok).2
  obtain rfl := Except.ok.inj hok
  refine ⟨rfl, rfl, rfl, readWords_of_frames hframes stale, rfl, ?_⟩
  by_cases hshared : sharedPayload request.flags = true
  · simp [FacetRpcMessage.payloadBytes, hshared, inlineBytes]
  · simpa [FacetRpcMessage.payloadBytes, hshared] using hbytes

/-- Attached handles arrive as they were sent. -/
theorem receivedAttachments_zero (caps : List FacetHandle) :
    receivedAttachments caps 0 = caps.map fun cap => ⟨.handle, cap, 0⟩ := by
  apply List.ext_getElem
  · simp [receivedAttachments]
  · intro index hleft hright
    have hindex : index < caps.length := by simpa [receivedAttachments] using hleft
    simp [receivedAttachments, not_le.mpr hindex]

/-- The handles of a message within the limits, as the other end attaches them. -/
theorem designated_received (hhandles : ∀ attachment ∈ request.attachments,
      attachment.kind = .handle ∧ attachment.handle ≠ none) :
    (receivedAttachments (request.attachments.map FacetRpcAttachment.handle) 0).map
        (fun attachment => (attachment.kind, attachment.handle)) = designated request := by
  rw [receivedAttachments_zero, List.map_map, List.map_map, designated]
  apply List.map_congr_left
  intro attachment hattachment
  simp [(hhandles attachment hattachment).1]

/-- A request within the limits reaches the dispatcher with its inline bytes, unless
its flags announce a frame: then its handle is taken for one. -/
theorem requestView_of_arrives (hlimits : RequestLimits request)
    (harrives : Arrives abi stale request received) :
    requestView received = { requestView request with payload := inlineBytes request }
      ∨ sharedPayload request.flags = true ∧ request.payloadSize ≠ 0
        ∧ designated received ≠ designated request := by
  obtain ⟨hpayload, message, hsend, hserver⟩ := harrives
  obtain ⟨hframes, hcaps⟩ := messageFromRequest_frames hsend
  have hsmall : request.payloadSize ≤ 512 := hlimits.payload_le
  obtain ⟨-, -, hflags, -⟩ := control_of_frames hframes (by omega) stale
  have htake : (message.deliver stale).caps.take sel4MaxAttachments
      = request.attachments.map FacetRpcAttachment.handle := by
    change message.caps.take 1 = _
    rw [hcaps]
    apply List.take_of_length_le
    rw [List.length_map]
    exact hlimits.attachments_le
  simp only [serverRequest, hflags, htake, List.length_map, ite_error_eq_ok] at hserver
  obtain ⟨hbuffers, hserver⟩ := hserver
  split at hserver
  · cases hserver
  rename_i decoded hdecoded
  obtain ⟨hversion, hmethod, hdecodedFlags, hwords, hsize, hbytes⟩ :=
    requestFromMessage_eq_ok hframes hpayload hlimits.payload_le hdecoded
  split at hserver
  · rename_i hframe
    have hbulk := bulkReadReceived_eq_ok hserver
    have hshared := sharedPayload_of_bufferCount hframe
    right
    refine ⟨hshared, hsize ▸ (hbulk.shared (hdecodedFlags ▸ hshared)).1, ?_⟩
    obtain ⟨attachment, hattachment⟩ : ∃ attachment, request.attachments = [attachment] := by
      apply List.length_eq_one_iff.mp
      have hle := hlimits.attachments_le
      omega
    have hone : bufferCount request.flags = 1 := by
      rw [hattachment] at hbuffers
      simp at hbuffers
      omega
    have hkind := (hlimits.handles attachment (by simp [hattachment])).1
    rw [designated, designated, hbulk.attachments, hattachment, hone]
    simp [receivedAttachments, hkind]
  · rename_i hnone
    left
    cases hserver
    simp only [requestView, designated, hversion, hmethod, hdecodedFlags, hwords, hsize,
      RequestView.mk.injEq, true_and]
    refine ⟨?_, ?_⟩
    · rw [← hbytes]
      simp only [FacetRpcMessage.payloadBytes, hsize]
    · rw [not_not.mp hnone]
      exact designated_received hlimits.handles

/-- The dispatcher sees the request of the caller exactly when no payload is
announced as shared that is not. -/
theorem requestView_eq_iff (hlimits : RequestLimits request)
    (harrives : Arrives abi stale request received) :
    requestView received = requestView request
      ↔ sharedPayload request.flags = false ∨ request.payloadSize = 0 := by
  have hlength := FacetRpcMessage.length_payloadBytes harrives.1
  have hinline : inlineBytes request = request.payloadBytes
      ↔ sharedPayload request.flags = false ∨ request.payloadSize = 0 := by
    cases hshared : sharedPayload request.flags with
    | false => simp [inlineBytes, hshared]
    | true =>
      simp only [inlineBytes, hshared, if_true, Bool.true_eq_false, false_or]
      rw [← hlength, List.length_eq_zero_iff]
      exact eq_comm
  cases requestView_of_arrives hlimits harrives with
  | inl hview =>
    rw [hview, ← hinline]
    refine ⟨fun heq => congrArg RequestView.payload heq, fun hbytes => ?_⟩
    rw [hbytes]
    rfl
  | inr hframe =>
    obtain ⟨hshared, hsize, hattachments⟩ := hframe
    refine ⟨fun heq => absurd (congrArg RequestView.attachments heq) hattachments, ?_⟩
    simp [hshared, hsize]

/-- A request within the limits that fits the message arrives. -/
theorem arrives_of_fits (hlimits : WithinLimits abi request)
    (hfits : FitsMessage abi request) (hinline : sharedPayload request.flags = false)
    (stale : ℕ → UInt64) : ∃ received, Arrives abi stale request received := by
  obtain ⟨message, hsend, -⟩ :=
    RequestSender.send_accepts hlimits hfits (.inl hinline) .messageFromRequest
  obtain ⟨hpayload, hsize, -, hframes⟩ := messageFromRequest_eq_ok (.inl hinline) hsend
  obtain ⟨hcount, hbound⟩ := wireWordCount_of_inline hlimits.payload_le
  have hlength : message.length ≤ abi.msgMaxLength :=
    length_of_frames hframes hpayload ▸ hfits
  obtain ⟨decoded, hdecoded⟩ := requestFromMessage_accepts hframes hpayload stale hsize
    (.inl hinline) hlimits.version (by rw [hcount, sizeMax]; omega) hlimits.words_le
    hlength
  obtain ⟨-, -, hflags, -⟩ := control_of_frames hframes hsize stale
  have hnone : bufferCount request.flags = 0 := by simp [bufferCount, hinline]
  refine ⟨{ decoded with
    attachments := receivedAttachments
      ((message.deliver stale).caps.take sel4MaxAttachments) 0 }, hpayload, message, hsend, ?_⟩
  simp only [serverRequest, hflags, hnone, hdecoded]
  rw [if_neg (Nat.not_lt_zero _), if_neg (not_not.mpr rfl)]

end Requests

/-! ## Replies within the limits -/

/-- The limits of the protocol for the outcome of a dispatcher. -/
structure OutcomeLimits (outcome : Int32 × RpcMessage) : Prop where
  hasPayload : outcome.2.HasPayload
  words_le : outcome.2.words.length ≤ rpcMaxWords
  payload_le : outcome.2.payloadSize ≤ rpcMaxInlinePayload
  attachments_le : outcome.2.attachments.length ≤ 1
  handles : ∀ attachment ∈ outcome.2.attachments,
    attachment.kind = .handle ∧ attachment.handle ≠ none

/-- What a caller gets: a result code, or the words, the payload and the delivered
handles of the reply. -/
def callResult (outcome : Except FacetError RpcMessage) :
    Except FacetError (List UInt64 × List UInt8 × List (FacetRpcAttachmentKind × FacetHandle)) :=
  outcome.map fun reply => (reply.words, reply.payloadBytes, designated reply)

theorem callResult_ok_inj {left right : RpcMessage}
    (heq : callResult (.ok left) = callResult (.ok right)) :
    left.words = right.words ∧ left.payloadBytes = right.payloadBytes := by
  have hresult := Except.ok.inj heq
  exact ⟨congrArg Prod.fst hresult, congrArg (fun result => result.2.1) hresult⟩

/-- The reply, with its result code as the first word if it has no other, fits the
message registers and carries no mark of the transport. -/
def ReplyFits (abi : Sel4Abi) (reply : RpcMessage) : Prop :=
  reply.words.length + wordCount wordBytes reply.payloadSize + 3 ≤ abi.msgMaxLength
    ∧ PlainFlags reply

instance (abi : Sel4Abi) (reply : RpcMessage) : Decidable (ReplyFits abi reply) :=
  inferInstanceAs (Decidable (_ ∧ _))

section Replies

variable {abi : Sel4Abi} {frame : Except FacetError Unit} {outcome : Int32 × RpcMessage}
  {stale : ℕ → UInt64}

/-- The reply that is sent for an outcome keeps its limits and has a word. -/
theorem OutcomeLimits.withResult (hlimits : OutcomeLimits outcome) :
    OutcomeLimits (outcome.1, withResult outcome.1 outcome.2)
      ∧ (Transport.withResult outcome.1 outcome.2).words ≠ [] := by
  unfold Transport.withResult
  split
  · refine ⟨⟨hlimits.hasPayload, ?_, hlimits.payload_le, hlimits.attachments_le,
      hlimits.handles⟩, List.cons_ne_nil _ _⟩
    exact Nat.le_of_ble_eq_true rfl
  · rename_i hwords
    exact ⟨hlimits, hwords⟩

/-- A reply within the limits is never put into a shared frame. -/
theorem serverReply_of_limits (hlimits : OutcomeLimits outcome) :
    serverReply abi frame outcome.1 outcome.2
      = replyToMessage abi (withResult outcome.1 outcome.2) := by
  obtain ⟨hreply, -⟩ := hlimits.withResult
  simp only [serverReply, bulkPrepare]
  rw [if_neg (not_not.mpr hreply.hasPayload), if_pos hreply.payload_le]

/-- The caller gets the reply of the dispatcher exactly when it fits. -/
theorem remoteCall_serverReply_iff (hlimits : OutcomeLimits outcome) :
    callResult (.ok (withResult outcome.1 outcome.2))
        = callResult (remoteCall abi ((serverReply abi frame outcome.1 outcome.2).deliver stale))
      ↔ ReplyFits abi (withResult outcome.1 outcome.2) := by
  obtain ⟨hreply, hwords⟩ := hlimits.withResult
  rw [serverReply_of_limits hlimits]
  generalize withResult outcome.1 outcome.2 = reply at hreply hwords
  obtain ⟨hpayload, hwordsMax, hinline, hattachments, hhandles⟩ := hreply
  obtain ⟨hcount, hbound⟩ := wireWordCount_of_inline hinline
  have hmax : wireWordCount reply.payloadSize ≠ sizeMax := by
    rw [hcount, sizeMax]
    omega
  have hlength := FacetRpcMessage.length_payloadBytes hpayload
  by_cases hfits : reply.words.length + wordCount wordBytes reply.payloadSize + 3
      ≤ abi.msgMaxLength
  · rw [replyToMessage_eq_framed hpayload hwords hwordsMax hmax hfits hattachments]
    have hframes := framedReply_frames reply
    have hnone : none ∉ (framedReply reply).caps := by
      intro hmem
      obtain ⟨attachment, hattachment, hnull⟩ := List.mem_map.mp hmem
      exact (hhandles attachment hattachment).2 hnull
    constructor
    · intro hsame
      refine ⟨hfits, ?_⟩
      cases hcall : remoteCall abi ((framedReply reply).deliver stale) with
      | error failure =>
        rw [hcall] at hsame
        cases hsame
      | ok received =>
        rw [hcall] at hsame
        obtain ⟨hsameWords, hsameBytes⟩ := callResult_ok_inj hsame
        exact plainFlags_of_delivered hframes hpayload hwords hinline
          ⟨received, hcall, hsameWords.symm, hsameBytes.symm⟩
    · rintro ⟨-, hplain⟩
      obtain ⟨received, hok, hreceived, hbytes, hreceivedAttachments⟩ :=
        remoteCall_reads_frames hframes hpayload hwords hwordsMax hinline abi hplain hnone stale
      have hall : (framedReply reply).caps.take sel4MaxAttachments
          = reply.attachments.map FacetRpcAttachment.handle :=
        List.take_of_length_le ((List.length_map _).trans_le hattachments)
      rw [hok]
      simp only [callResult, Except.map, hreceived, hbytes, designated, hreceivedAttachments,
        hall]
      rw [designated_received hhandles, designated]
  · rw [replyToMessage_eq_tooSmall hwordsMax hmax hfits]
    constructor
    · intro hsame
      obtain ⟨received, hok, hreceived, hbytes, -⟩ :=
        remoteCall_reads_frames tooSmallMessage_frames (by decide) (by decide) (by decide)
          (by decide) abi (by decide) (by decide) stale
      rw [hok] at hsame
      obtain ⟨hsameWords, hsameBytes⟩ := callResult_ok_inj hsame
      have hone : reply.words.length = 1 := by
        rw [hsameWords, hreceived]
        rfl
      have hnil : reply.payloadBytes = [] := by
        rw [hsameBytes, hbytes]
        rfl
      rw [hnil] at hlength
      have hcontrol := abi.control_le
      refine absurd ?_ hfits
      rw [hone, ← hlength]
      simpa [wordCount, wordBytes] using hcontrol
    · intro hreplyFits
      exact absurd hreplyFits.1 hfits

end Replies

/-! ## Location transparency -/

theorem RequestLimits.actualRequest {request : RpcMessage} (hlimits : RequestLimits request)
    (methodId : UInt32) : RequestLimits (actualRequest methodId request) := by
  unfold Transport.actualRequest
  split
  · exact ⟨hlimits.words_le, hlimits.payload_le, hlimits.attachments_le, hlimits.handles⟩
  · exact hlimits

/-- A request that arrives is answered with what the dispatcher makes of the
received request. -/
theorem remoteInvoke_of_arrives {abi : Sel4Abi} {channel : Channel} {methodId : UInt32}
    {request received : RpcMessage} (hlimits : RequestLimits request)
    (harrives : Arrives abi channel.staleRequest (actualRequest methodId request) received)
    (dispatch : Dispatch) :
    remoteInvoke abi channel ⟨methodId, dispatch⟩ request
      = remoteCall abi ((serverReply abi channel.frame (dispatch (requestView received)).1
          (dispatch (requestView received)).2).deliver channel.staleReply) := by
  obtain ⟨hpayload, message, hsend, hserver⟩ := harrives
  simp only [remoteInvoke, bulkPrepare]
  rw [if_neg (not_not.mpr hpayload), if_pos (hlimits.actualRequest methodId).payload_le]
  simp only [hsend, facetSel4ServerEntry, hserver]

variable (words : List UInt64)

/-- A short reply with one word that differs from a given list of words. -/
def otherReply : RpcMessage where
  protocolVersion := rpcProtocolVersion
  methodId := 0
  flags := 0
  words := [if words = [0] then 1 else 0]
  payload := none
  payloadSize := 0
  attachments := []
  payload_readable := readable_none

theorem otherReply_words_ne : words ≠ (otherReply words).words := by
  by_cases hzero : words = [0]
  · rw [hzero]
    decide
  · simp [otherReply, hzero]

theorem outcomeLimits_otherReply : OutcomeLimits (0, otherReply words) := by
  refine ⟨by simp [otherReply, FacetRpcMessage.HasPayload], ?_, ?_, ?_, List.forall_mem_nil _⟩
  · exact Nat.le_of_ble_eq_true rfl
  · exact Nat.zero_le _
  · exact Nat.zero_le _

theorem withResult_otherReply : withResult 0 (otherReply words) = otherReply words :=
  if_neg (List.cons_ne_nil _ _)

theorem replyFits_otherReply (abi : Sel4Abi) (words : List UInt64) :
    ReplyFits abi (otherReply words) := by
  have hclear : sharedPayload 0 = false := by decide
  refine ⟨?_, .inl hclear⟩
  have hcontrol := abi.control_le
  simpa [otherReply, wordCount, wordBytes] using hcontrol

/-- A request that arrives gives the caller the same result by message as by a
direct call, whatever object with the given outcome is behind the handle, exactly
when neither the request nor the reply is marked as shared without being so, and
the reply fits the message registers. -/
theorem calls_agree_iff (abi : Sel4Abi) (channel : Channel) (methodId : UInt32)
    (request received : RpcMessage) (outcome : Int32 × RpcMessage)
    (hlimits : RequestLimits request)
    (harrives : Arrives abi channel.staleRequest (actualRequest methodId request) received)
    (houtcome : OutcomeLimits outcome) :
    (∀ dispatch : Dispatch, dispatch (requestView (actualRequest methodId request)) = outcome →
      callResult (localCall ⟨methodId, dispatch⟩ request)
        = callResult (remoteInvoke abi channel ⟨methodId, dispatch⟩ request))
    ↔ (sharedPayload request.flags = false ∨ request.payloadSize = 0)
      ∧ ReplyFits abi (withResult outcome.1 outcome.2) := by
  have hactual := hlimits.actualRequest methodId
  have hflags : (actualRequest methodId request).flags = request.flags := by
    unfold actualRequest
    split <;> rfl
  have hsize : (actualRequest methodId request).payloadSize = request.payloadSize := by
    unfold actualRequest
    split <;> rfl
  have hview := requestView_eq_iff hactual harrives
  rw [hflags, hsize] at hview
  rw [← hview]
  constructor
  · intro hagree
    have hfits : ReplyFits abi (withResult outcome.1 outcome.2) := by
      have hconstant := hagree (fun _ => outcome) rfl
      rw [remoteInvoke_of_arrives hlimits harrives] at hconstant
      exact (remoteCall_serverReply_iff houtcome).mp hconstant
    refine ⟨?_, hfits⟩
    -- A dispatcher that tells the two requests apart makes the calls differ.
    by_contra hdiffers
    let other := otherReply (withResult outcome.1 outcome.2).words
    have hsplit := hagree
      (fun view => if view = requestView (actualRequest methodId request) then outcome
        else (0, other)) (if_pos rfl)
    rw [remoteInvoke_of_arrives hlimits harrives, if_neg hdiffers] at hsplit
    have hother : ReplyFits abi (withResult 0 other) := by
      rw [withResult_otherReply]
      exact replyFits_otherReply abi _
    rw [← (remoteCall_serverReply_iff (outcomeLimits_otherReply _)).mpr hother] at hsplit
    simp only [localCall, if_true] at hsplit
    rw [withResult_otherReply] at hsplit
    exact otherReply_words_ne _ (callResult_ok_inj hsplit).1
  · rintro ⟨hsame, hfits⟩ dispatch hdispatch
    rw [remoteInvoke_of_arrives hlimits harrives, hsame, hdispatch]
    simp only [localCall, hdispatch]
    exact (remoteCall_serverReply_iff houtcome).mpr hfits

/-- Registers that held zeros, and frames at hand. -/
def quietChannel : Channel := ⟨fun _ => 0, fun _ => 0, .ok ()⟩

/-- A request with one word, one payload byte and one handle. -/
def sampleRequest : RpcMessage where
  protocolVersion := rpcProtocolVersion
  methodId := 3
  flags := 0
  words := [7]
  payload := some [1]
  payloadSize := 1
  attachments := [⟨.handle, some (.endpoint 4), 0⟩]
  payload_readable := by simp

/-- A reply with `count` zero words, `bytes` zero payload bytes and one handle. -/
def handleReply (count bytes : ℕ) : RpcMessage where
  protocolVersion := rpcProtocolVersion
  methodId := 0
  flags := 0
  words := List.replicate count 0
  payload := some (List.replicate bytes 0)
  payloadSize := bytes
  attachments := [⟨.handle, some (.endpoint 5), 0⟩]
  payload_readable := readable_replicate bytes

theorem requestLimits_sampleRequest : RequestLimits sampleRequest := by
  refine ⟨by decide, by decide, by decide, ?_⟩
  simp [sampleRequest]

theorem outcomeLimits_handleReply {count bytes : ℕ} (hcount : count ≤ rpcMaxWords)
    (hbytes : bytes ≤ rpcMaxInlinePayload) : OutcomeLimits (0, handleReply count bytes) := by
  refine ⟨?_, ?_, hbytes, by simp [handleReply], by simp [handleReply]⟩
  · simp [handleReply, FacetRpcMessage.HasPayload]
  · simpa [handleReply] using hcount

theorem sampleRequest_arrives :
    ∃ received, Arrives x86Abi quietChannel.staleRequest (actualRequest 0 sampleRequest)
      received := by
  have hactual : actualRequest 0 sampleRequest = sampleRequest := if_neg (not_not.mpr rfl)
  rw [hactual]
  have hlimits : WithinLimits x86Abi sampleRequest :=
    ⟨rfl, by decide, by decide, by decide, by decide, by decide,
      requestLimits_sampleRequest.handles⟩
  exact arrives_of_fits hlimits (by decide) (by decide) _

theorem calls_agree_iff_small_reply :
    callResult (localCall ⟨0, fun _ => (0, handleReply 1 16)⟩ sampleRequest)
      = callResult (remoteInvoke x86Abi quietChannel ⟨0, fun _ => (0, handleReply 1 16)⟩
        sampleRequest) := by
  obtain ⟨received, harrives⟩ := sampleRequest_arrives
  exact (calls_agree_iff x86Abi quietChannel 0 sampleRequest received (0, handleReply 1 16)
    requestLimits_sampleRequest harrives (outcomeLimits_handleReply (by decide) (by decide))).mpr
    ⟨.inl (by decide), by decide⟩ _ rfl

/-- A reply of 64 words and 512 payload bytes is delivered by a direct call and
replaced by an error report on the way through the server thread. -/
theorem large_reply_differs :
    OutcomeLimits (0, handleReply 64 512)
      ∧ (∃ received, Arrives x86Abi quietChannel.staleRequest (actualRequest 0 sampleRequest)
        received)
      ∧ callResult (localCall ⟨0, fun _ => (0, handleReply 64 512)⟩ sampleRequest)
        ≠ callResult (remoteInvoke x86Abi quietChannel ⟨0, fun _ => (0, handleReply 64 512)⟩
          sampleRequest) := by
  have hlimits := @outcomeLimits_handleReply 64 512 (by decide) (by decide)
  refine ⟨hlimits, sampleRequest_arrives, ?_⟩
  obtain ⟨received, harrives⟩ := sampleRequest_arrives
  rw [remoteInvoke_of_arrives requestLimits_sampleRequest harrives]
  intro hsame
  have hfits := (remoteCall_serverReply_iff hlimits).mp hsame
  exact absurd hfits (by decide)

end FacetOS.Transport
