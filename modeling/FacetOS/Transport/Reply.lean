import FacetOS.Transport.Frame

/-!
# Reply framing on seL4 message registers

Two servers emit replies: the platform's server threads, which put a payload of
more than 512 bytes into a shared frame before they call `replyToMessage`, and
the service loop with `encodeReply`.  Two receivers read them: `remoteCall` in a
process with a full platform and the client half of `libfacetPlatformCall`.

Register 0 holds the first reply word, which is the result code; the remaining
words follow from register 4 on and the packed payload stands behind them.
-/

namespace FacetOS.Transport

open LittleEndian Registers Rpc
open Passes (ite_error_eq_ok)

variable (abi : Sel4Abi)

def sel4PageSize : ℕ := 2 ^ abi.pageBits

/-- The number of shared frames that the flags of a message announce. -/
def bufferCount (flags : UInt32) : ℕ :=
  if sharedPayload flags then (flags >>> 24 &&& 0x7f).toNat else 0

theorem sharedPayload_of_bufferCount {flags : UInt32} (hframes : bufferCount flags ≠ 0) :
    sharedPayload flags = true := by
  by_contra hclear
  exact hframes (if_neg hclear)

/-- The flags of a message whose payload travels in `pages` shared frames. -/
def sharedFlags (flags : UInt32) (pages : ℕ) : UInt32 :=
  let shared : UInt32 := 0x80000000
  let countMask : UInt32 := (0x7f : UInt32) <<< (24 : UInt32)
  ((flags ||| shared) &&& ~~~countMask) ||| (UInt32.ofNat pages <<< 24)

/-! ## Servers -/

/-- The part of a payload that goes into frame `index`, as the contents of that
zero-filled frame. -/
def framePage (bytes : List UInt8) (index : ℕ) : List UInt8 :=
  let chunk := (bytes.drop (index * sel4PageSize abi)).take (sel4PageSize abi)
  chunk ++ List.replicate (sel4PageSize abi - chunk.length) 0

/-- `frame` tells whether frames can be allocated and mapped.  The flags are
changed before the first allocation, so a failure leaves the changed flags. -/
def bulkPrepare (frame : Except FacetError Unit)
    (message : RpcMessage) : Except FacetError Unit × RpcMessage :=
  let pageSize := sel4PageSize abi
  let pages :=
    if message.payloadSize > sizeMax - pageSize + 1 then sizeMax
    else (message.payloadSize + pageSize - 1) / pageSize
  if ¬ message.HasPayload then (.error .invalidArgument, message)
  else if message.payloadSize ≤ rpcMaxInlinePayload then (.ok (), message)
  else if pages = sizeMax ∨ pages > sel4MaxAttachments ∨
      message.attachments.length > sel4MaxAttachments - pages then
    (.error .bufferTooSmall, message)
  else
    let flagged := { message with flags := sharedFlags message.flags pages }
    match frame with
    | .error failure => (.error failure, flagged)
    | .ok () =>
      let buffers := (List.range pages).map fun index =>
        { kind := FacetRpcAttachmentKind.buffer
          handle := some (.frame (framePage abi message.payloadBytes index))
          size := min pageSize (message.payloadSize - index * pageSize) }
      (.ok (), { flagged with attachments := message.attachments ++ buffers })

/-- The reply that reports a failed framing. -/
def tooSmallMessage : Sel4Message where
  length := 4
  writes := blockWrites 0
    [FacetError.bufferTooSmall.code.toUInt32.toUInt64, rpcProtocolVersion.toUInt64, 0, 0]
  caps := []

/-- The four control registers of a reply. -/
def replyControl (reply : RpcMessage) : List UInt64 :=
  [reply.words.headD 0, rpcProtocolVersion.toUInt64, reply.flags.toUInt64,
    UInt64.ofNat reply.payloadSize]

def replyToMessage (reply : RpcMessage) : Sel4Message :=
  let wordCount := reply.words.length
  let payloadWords := wireWordCount reply.payloadSize
  let length := (wordCount + payloadWords + 3) % 2 ^ 64
  if payloadWords = sizeMax ∨ length < wordCount ∨ length > abi.msgMaxLength ∨
      ¬ reply.HasPayload then
    tooSmallMessage
  else if reply.attachments.length > sel4MaxAttachments then tooSmallMessage
  else
    { length := length
      writes := blockWrites 0 (replyControl reply) ++
        blockWrites 4 ((reply.words.drop 1).take (length - 4)) ++
        blockWrites (wordCount + 3)
          (payloadRegisters reply.payloadBytes
            (min payloadWords (length - (wordCount + 3))))
      caps := reply.attachments.map FacetRpcAttachment.handle }

/-- A dispatcher that wrote no word has its result code sent instead. -/
def withResult (result : Int32) (reply : RpcMessage) : RpcMessage :=
  if reply.words = [] then { reply with words := [resultWord result] } else reply

/-- What a server thread sends after its dispatcher returned. -/
def serverReply (frame : Except FacetError Unit) (result : Int32)
    (reply : RpcMessage) : Sel4Message :=
  match bulkPrepare abi frame (withResult result reply) with
  | (.ok (), prepared) => replyToMessage abi prepared
  | (.error _, prepared) =>
    replyToMessage abi
      { prepared with
        words := [resultWord FacetError.bufferTooSmall.code]
        payload := none
        payloadSize := 0
        attachments := []
        payload_readable := readable_none }

def encodeReply (result : Int32) (message : RpcMessage) : Sel4Message :=
  let reply := withResult result message
  let wordCount := reply.words.length
  let payloadWords := wireWords reply.payloadSize
  if reply.payloadSize > rpcMaxInlinePayload ∨ wordCount = 0 ∨
      wordCount - 1 > rpcMaxWords ∨
      4 + wordCount - 1 + payloadWords > abi.msgMaxLength ∨
      reply.attachments.length > 1 then
    { length := 4
      writes := blockWrites 0
        [resultWord FacetError.bufferTooSmall.code, rpcProtocolVersion.toUInt64,
          reply.flags.toUInt64, 0]
      caps := [] }
  else
    { length := 3 + wordCount + payloadWords
      writes := blockWrites 0 (replyControl reply) ++
        blockWrites 4 (reply.words.drop 1) ++
        blockWrites (3 + wordCount) (payloadRegisters reply.payloadBytes payloadWords)
      caps := reply.attachments.map FacetRpcAttachment.handle }

/-! ## Receivers -/

/-- The bytes of the received frames, cut to the announced payload size. -/
def readFrames (size : ℕ) : List FacetHandle → Except FacetError (List UInt8)
  | [] => .ok []
  | some (.frame page) :: caps => do
      let copy := min (sel4PageSize abi) size
      let rest ← readFrames (size - copy) caps
      return page.take copy ++ rest
  | _ :: _ => .error .error

def bulkReadReceived (message : RpcMessage) (firstBuffer count : ℕ)
    (caps : List FacetHandle) : Except FacetError RpcMessage :=
  let pageSize := sel4PageSize abi
  if sharedPayload message.flags = false then .ok message
  else if count = 0 ∨ message.payloadSize = 0 ∨ count > sel4MaxAttachments ∨
      firstBuffer + count > message.attachments.length then
    .error .protocolError
  else if count > sizeMax / pageSize ∨ message.payloadSize > count * pageSize then
    .error .protocolError
  else
    match readFrames abi message.payloadSize (caps.take count) with
    | .error failure => .error failure
    | .ok bytes =>
      if hsize : bytes.length = message.payloadSize then
        .ok { message with
          payload := some bytes
          payload_readable := by
            intro content hcontent
            cases hcontent
            exact hsize.ge }
      else .error .protocolError

/-- A message read from frames differs in its payload only, and that comes from the frames. -/
structure BulkRead (abi : Sel4Abi) (unread received : RpcMessage) (count : ℕ)
    (caps : List FacetHandle) : Prop where
  methodId : received.methodId = unread.methodId
  words : received.words = unread.words
  attachments : received.attachments = unread.attachments
  payloadSize : received.payloadSize = unread.payloadSize
  shared : sharedPayload unread.flags = true →
    unread.payloadSize ≠ 0 ∧ count ≠ 0 ∧ count ≤ sel4MaxAttachments ∧
      ∃ bytes, readFrames abi unread.payloadSize (caps.take count) = .ok bytes ∧
        received.payload = some bytes ∧ bytes.length = unread.payloadSize

theorem bulkReadReceived_eq_ok {abi : Sel4Abi} {unread received : RpcMessage}
    {firstBuffer count : ℕ} {caps : List FacetHandle}
    (hok : bulkReadReceived abi unread firstBuffer count caps = .ok received) :
    BulkRead abi unread received count caps := by
  unfold bulkReadReceived at hok
  split at hok
  · rename_i hclear
    cases hok
    exact ⟨rfl, rfl, rfl, rfl, fun hshared => by simp [hshared] at hclear⟩
  simp only [ite_error_eq_ok, not_or, not_lt] at hok
  obtain ⟨⟨hcount, hsize, hfew, -⟩, -, hok⟩ := hok
  split at hok
  · cases hok
  rename_i bytes hread
  split at hok
  · rename_i hlength
    cases hok
    exact ⟨rfl, rfl, rfl, rfl, fun _ => ⟨hsize, hcount, hfew, bytes, hread, rfl, hlength⟩⟩
  · cases hok

/-- The attachments of a received reply: handles first, then shared frames. -/
def receivedAttachments (caps : List FacetHandle) (buffers : ℕ) :
    List RpcAttachment :=
  caps.mapIdx fun index cap =>
    if index ≥ caps.length - buffers then ⟨.buffer, none, 0⟩ else ⟨.handle, cap, 0⟩

/-- The part of `remote_call` that reads the reply. -/
def remoteCall (received : Sel4Received) : Except FacetError RpcMessage :=
  let protocolVersion := (received.registers 1).toUInt32
  let flags := (received.registers 2).toUInt32
  let payloadSize := (received.registers 3).toNat
  let payloadWords := if sharedPayload flags then 0 else wireWordCount payloadSize
  let available := received.length - 4
  let wordCount := 1 + (available - payloadWords)
  let caps := received.caps.take sel4MaxAttachments
  let buffers := bufferCount flags
  if protocolVersion ≠ rpcProtocolVersion then .error .protocolError
  else if payloadWords = sizeMax then .error .protocolError
  else if wordCount > rpcMaxWords then .error .protocolError
  else if buffers > caps.length then .error .protocolError
  -- A handle that was not transferred cannot be copied to a stable slot.
  else if (caps.take (caps.length - buffers)).any (· == none) then .error .outOfMemory
  else
    let reply : RpcMessage :=
      { protocolVersion := protocolVersion
        methodId := 0
        flags := flags
        words := received.registers 0 :: readWords received 4 (wordCount - 1)
        payload :=
          if sharedPayload flags = false ∧ payloadSize ≠ 0 ∧ payloadWords ≤ available then
            some (readPayload received (4 + wordCount - 1) payloadSize)
          else none
        payloadSize := payloadSize
        attachments := receivedAttachments caps buffers
        payload_readable := readable_ite (length_readPayload ..) }
    if buffers ≠ 0 then
      bulkReadReceived abi reply (caps.length - buffers) buffers
        (caps.drop (caps.length - buffers))
    else .ok reply

/-- The part of `libfacet_platform_call` that reads the reply. -/
def libfacetPlatformReply (received : Sel4Received) : Except FacetError RpcMessage :=
  let protocolVersion := (received.registers 1).toUInt32
  let flags := (received.registers 2).toUInt32
  let payloadSize := (received.registers 3).toNat
  let payloadWords := wireWordCount payloadSize
  let available := received.length - 4
  let wordCount := 1 + available - payloadWords
  if received.caps.length > 1 then .error .protocolError
  else if received.length < 4 then .error .protocolError
  else if sharedPayload flags ∨ payloadSize > rpcMaxInlinePayload then .error .notSupported
  else if payloadWords = sizeMax ∨ payloadWords > available then .error .protocolError
  else if wordCount > rpcMaxWords then .error .protocolError
  else if protocolVersion ≠ rpcProtocolVersion then .error .protocolError
  else
    .ok {
      protocolVersion := protocolVersion
      methodId := 0
      flags := flags
      words := received.registers 0 :: readWords received 4 (wordCount - 1)
      payload :=
        if payloadSize ≠ 0 then some (readPayload received (4 + wordCount - 1) payloadSize)
        else none
      payloadSize := payloadSize
      attachments := received.caps.map fun cap => ⟨.handle, cap, 0⟩
      payload_readable := readable_ite (length_readPayload ..) }

/-! ## Inline replies are framed -/

/-- The message that holds a reply behind its control registers. -/
def framedReply (reply : RpcMessage) : Sel4Message where
  length := 4 + (reply.words.drop 1).length + wordCount wordBytes reply.payloadBytes.length
  writes := frameWrites (replyControl reply) (reply.words.drop 1) reply.payloadBytes
  caps := reply.attachments.map FacetRpcAttachment.handle

/-- The registers of a message hold this reply. -/
abbrev FramesReply (message : Sel4Message) (reply : RpcMessage) : Prop :=
  Frames message (replyControl reply) (reply.words.drop 1) reply.payloadBytes

theorem framedReply_frames (reply : RpcMessage) : FramesReply (framedReply reply) reply :=
  frames_mk _ rfl rfl

section Framed

variable {abi : Sel4Abi} {reply : RpcMessage}

/-- A reply with at least one word and a payload that fits is framed by
`replyToMessage` behind its control registers. -/
theorem replyToMessage_eq_framed (hpayload : reply.HasPayload)
    (hwords : reply.words ≠ []) (hwordsMax : reply.words.length ≤ rpcMaxWords)
    (hmax : wireWordCount reply.payloadSize ≠ sizeMax)
    (hfits : reply.words.length + wordCount wordBytes reply.payloadSize + 3 ≤
      abi.msgMaxLength)
    (hattachments : reply.attachments.length ≤ sel4MaxAttachments) :
    replyToMessage abi reply = framedReply reply := by
  obtain ⟨hcount, hsize⟩ := wireWordCount_of_ne_sizeMax hmax
  rw [hcount, sizeMax] at hmax
  have hbound : wordCount wordBytes reply.payloadSize ≤ 2 ^ 61 := by
    simp only [wordCount, wordBytes]
    omega
  have hlength := FacetRpcMessage.length_payloadBytes hpayload
  have hpositive : 0 < reply.words.length := List.length_pos_iff.mpr hwords
  have hsixtyFour : reply.words.length ≤ 64 := hwordsMax
  have htotal : (reply.words.length + wordCount wordBytes reply.payloadSize + 3) % 2 ^ 64 =
      reply.words.length + wordCount wordBytes reply.payloadSize + 3 :=
    Nat.mod_eq_of_lt (by omega)
  simp only [replyToMessage, hcount, htotal]
  rw [if_neg, if_neg (not_lt.mpr hattachments)]
  · have hall : (reply.words.drop 1).take
        (reply.words.length + wordCount wordBytes reply.payloadSize + 3 - 4) =
          reply.words.drop 1 := by
      apply List.take_of_length_le
      rw [List.length_drop]
      omega
    have hregisters : min (wordCount wordBytes reply.payloadSize)
        (reply.words.length + wordCount wordBytes reply.payloadSize + 3 -
          (reply.words.length + 3)) = wordCount wordBytes reply.payloadSize := by
      omega
    have hbase : reply.words.length + 3 = 4 + (reply.words.drop 1).length := by
      rw [List.length_drop]
      omega
    rw [hall, hregisters, hbase, framedReply, frameWrites, hlength]
    congr 1
    omega
  · simp only [not_or, not_not, sizeMax]
    exact ⟨by omega, by omega, by omega, hpayload⟩

/-- A reply that exceeds the message registers is replaced by an error report. -/
theorem replyToMessage_eq_tooSmall (hwordsMax : reply.words.length ≤ rpcMaxWords)
    (hmax : wireWordCount reply.payloadSize ≠ sizeMax)
    (hexceeds : ¬ reply.words.length + wordCount wordBytes reply.payloadSize + 3 ≤
      abi.msgMaxLength) :
    replyToMessage abi reply = tooSmallMessage := by
  obtain ⟨hcount, hsize⟩ := wireWordCount_of_ne_sizeMax hmax
  have hsixtyFour : reply.words.length ≤ 64 := hwordsMax
  have hbound : wordCount wordBytes reply.payloadSize ≤ 2 ^ 61 := by
    simp only [wordCount, wordBytes]
    omega
  simp only [replyToMessage, hcount]
  rw [if_pos]
  rw [Nat.mod_eq_of_lt (by omega)]
  exact .inr (.inr (.inl (by omega)))

/-- The service frames its replies in the same way. -/
theorem encodeReply_eq_framed {result : Int32} {message : RpcMessage}
    (hreply : withResult result message = reply) (hpayload : reply.HasPayload)
    (hwords : reply.words ≠ []) (hwordsMax : reply.words.length ≤ rpcMaxWords)
    (hinline : reply.payloadSize ≤ rpcMaxInlinePayload)
    (hfits : reply.words.length + wordCount wordBytes reply.payloadSize + 3 ≤
      abi.msgMaxLength)
    (hattachments : reply.attachments.length ≤ 1) :
    encodeReply abi result message = framedReply reply := by
  have hlength := FacetRpcMessage.length_payloadBytes hpayload
  have hpositive : 0 < reply.words.length := List.length_pos_iff.mpr hwords
  simp only [encodeReply, hreply, wireWords_of_inline hinline]
  rw [if_neg]
  · have hbase : 3 + reply.words.length = 4 + (reply.words.drop 1).length := by
      rw [List.length_drop]
      omega
    rw [hbase, framedReply, frameWrites, hlength]
  · simp only [not_or]
    exact ⟨by omega, by omega, by omega, by omega, by omega⟩

end Framed

/-! ## Receivers read the frame back -/

section Received

variable {abi : Sel4Abi} {reply : RpcMessage} {message : Sel4Message}

/-- A receiver got the words and the payload of `reply`. -/
def Delivered (reply : RpcMessage) (outcome : Except FacetError RpcMessage) :
    Prop :=
  ∃ received, outcome = .ok received ∧ received.words = reply.words ∧
    received.payloadBytes = reply.payloadBytes

/-- The flags leave words, payload and handles of a reply in their places: no
payload is announced as shared, or there is none and no frame is announced. -/
def PlainFlags (reply : RpcMessage) : Prop :=
  sharedPayload reply.flags = false ∨ reply.payloadSize = 0 ∧ bufferCount reply.flags = 0

instance (reply : RpcMessage) : Decidable (PlainFlags reply) :=
  inferInstanceAs (Decidable (_ ∨ _))

theorem PlainFlags.bufferCount_eq (hplain : PlainFlags reply) : bufferCount reply.flags = 0 := by
  cases hplain with
  | inl hclear => simp [bufferCount, hclear]
  | inr hempty => exact hempty.2

theorem PlainFlags.payloadWords_eq (hplain : PlainFlags reply)
    (hinline : reply.payloadSize ≤ rpcMaxInlinePayload) :
    (if sharedPayload reply.flags = true then 0 else wireWordCount reply.payloadSize)
      = wordCount wordBytes reply.payloadSize := by
  obtain ⟨hcount, -⟩ := wireWordCount_of_inline hinline
  cases hplain with
  | inl hclear => rw [if_neg (by simp [hclear]), hcount]
  | inr hempty =>
    rw [hcount, hempty.1]
    simp [wordCount, wordBytes]

section

variable (hframes : FramesReply message reply) (hpayload : reply.HasPayload)
  (hwords : reply.words ≠ []) (hwordsMax : reply.words.length ≤ rpcMaxWords)
  (hinline : reply.payloadSize ≤ rpcMaxInlinePayload)
include hframes hpayload

theorem length_reply_of_frames (stale : ℕ → UInt64) : (message.deliver stale).length =
    4 + (reply.words.length - 1) + wordCount wordBytes reply.payloadSize := by
  change message.length = _
  rw [hframes.length_eq, List.length_drop, FacetRpcMessage.length_payloadBytes hpayload]

include hwords

theorem payload_of_reply_frames (stale : ℕ → UInt64) :
    ((if reply.payloadSize ≠ 0 then some (readPayload (message.deliver stale)
        (4 + reply.words.length - 1) reply.payloadSize) else none).getD []).take
      reply.payloadSize = reply.payloadBytes := by
  have hpositive := List.length_pos_iff.mpr hwords
  have hbase : 4 + reply.words.length - 1 = 4 + (reply.words.drop 1).length := by
    rw [List.length_drop]
    omega
  have hbytes := payload_of_frames hframes stale
  rwa [FacetRpcMessage.length_payloadBytes hpayload, ← hbase] at hbytes

omit hpayload in
theorem cons_readWords_of_frames (stale : ℕ → UInt64) :
    reply.words.headD 0 ::
        readWords (message.deliver stale) 4 (reply.words.length - 1) = reply.words := by
  have htail := readWords_of_frames hframes stale
  rw [List.length_drop] at htail
  rw [htail]
  cases hcase : reply.words with
  | nil => exact absurd hcase hwords
  | cons head tail => rfl

include hpayload hinline

/-- A reply that is marked as shared has its payload registers taken for words, and
no frame is read for an empty payload. -/
theorem remoteCall_shared_eq_ok {received : RpcMessage} {stale : ℕ → UInt64}
    (hshared : sharedPayload reply.flags = true)
    (hok : remoteCall abi (message.deliver stale) = .ok received) :
    received.words.length = reply.words.length + wordCount wordBytes reply.payloadSize
      ∧ (bufferCount reply.flags ≠ 0 → reply.payloadSize ≠ 0) := by
  have hsmall : reply.payloadSize ≤ 512 := hinline
  obtain ⟨hfirst, hversion, hflags, hregister⟩ := hframes.decoded (by omega) stale
  have hpositive : 0 < reply.words.length := List.length_pos_iff.mpr hwords
  have htotal : (message.deliver stale).length - 4
      = reply.words.length - 1 + wordCount wordBytes reply.payloadSize := by
    rw [length_reply_of_frames hframes hpayload stale]
    omega
  have hcount : 1 + (reply.words.length - 1 + wordCount wordBytes reply.payloadSize - 0) - 1 + 1
      = reply.words.length + wordCount wordBytes reply.payloadSize := by
    omega
  simp only [remoteCall, hversion, hflags, hregister, hshared, htotal, if_true,
    ite_error_eq_ok] at hok
  obtain ⟨-, -, -, -, -, hok⟩ := hok
  split at hok
  · have hbulk := bulkReadReceived_eq_ok hok
    refine ⟨?_, fun _ => (hbulk.shared hshared).1⟩
    rw [hbulk.words, List.length_cons, length_readWords, hcount]
  · rename_i hnone
    cases hok
    refine ⟨?_, fun hframe => absurd hframe hnone⟩
    rw [List.length_cons, length_readWords, hcount]

/-- A reply that arrives with its words is not marked, or has no payload and no frame. -/
theorem plainFlags_of_delivered {stale : ℕ → UInt64}
    (hdelivered : Delivered reply (remoteCall abi (message.deliver stale))) : PlainFlags reply := by
  obtain ⟨received, hok, hsame, -⟩ := hdelivered
  cases hshared : sharedPayload reply.flags with
  | false => exact .inl hshared
  | true =>
    obtain ⟨hreceived, hframe⟩ :=
      remoteCall_shared_eq_ok hframes hpayload hwords hinline hshared hok
    rw [hsame] at hreceived
    have hempty : reply.payloadSize = 0 := by
      have hzero : wordCount wordBytes reply.payloadSize = 0 := by omega
      simp only [wordCount, wordBytes] at hzero
      omega
    refine .inr ⟨hempty, ?_⟩
    by_contra hbuffers
    exact hframe hbuffers hempty

include hwordsMax

/-- `remoteCall` reads back the words and the payload of a framed reply and takes
its capabilities as handles. -/
theorem remoteCall_reads_frames (abi : Sel4Abi) (hplain : PlainFlags reply)
    (hhandles : none ∉ message.caps) (stale : ℕ → UInt64) :
    ∃ received, remoteCall abi (message.deliver stale) = .ok received
      ∧ received.words = reply.words ∧ received.payloadBytes = reply.payloadBytes
      ∧ received.attachments
        = receivedAttachments (message.caps.take sel4MaxAttachments) 0 := by
  have hsmall : reply.payloadSize ≤ 512 := hinline
  obtain ⟨hfirst, hversion, hflags, hregister⟩ := hframes.decoded (by omega) stale
  obtain ⟨-, hbound⟩ := wireWordCount_of_inline hinline
  have hcount := hplain.payloadWords_eq hinline
  have hpositive : 0 < reply.words.length := List.length_pos_iff.mpr hwords
  have htotal := length_reply_of_frames hframes hpayload stale
  have hreceivedWords : 1 + ((message.deliver stale).length - 4 -
      wordCount wordBytes reply.payloadSize) = reply.words.length := by
    omega
  have hcaps : ¬ ((((message.deliver stale).caps.take sel4MaxAttachments).take
      (((message.deliver stale).caps.take sel4MaxAttachments).length - 0)).any
        (· == none)) = true := by
    simp only [List.any_eq_true, not_exists, not_and]
    intro cap hcap
    have hmem : cap ∈ message.caps :=
      List.mem_of_mem_take (List.mem_of_mem_take hcap)
    cases cap with
    | none => exact absurd hmem hhandles
    | some capability => simp
  simp only [remoteCall, hversion, hflags, hregister, hfirst, hcount, hplain.bufferCount_eq,
    hreceivedWords]
  rw [if_neg (not_not.mpr rfl), if_neg (by rw [sizeMax]; omega),
    if_neg (not_lt.mpr hwordsMax), if_neg (Nat.not_lt_zero _), if_neg hcaps,
    if_neg (not_not.mpr rfl)]
  refine ⟨_, rfl, cons_readWords_of_frames hframes hwords stale, ?_, rfl⟩
  have havailable : wordCount wordBytes reply.payloadSize ≤
      (message.deliver stale).length - 4 := by
    omega
  have hread : (sharedPayload reply.flags = false ∧ reply.payloadSize ≠ 0)
      ↔ reply.payloadSize ≠ 0 := by
    refine ⟨fun hboth => hboth.2, fun hne => ⟨?_, hne⟩⟩
    cases hplain with
    | inl hclear => exact hclear
    | inr hempty => exact absurd hempty.1 hne
  simpa only [FacetRpcMessage.payloadBytes, havailable, and_true, ← and_assoc, hread]
    using payload_of_reply_frames hframes hpayload hwords stale

theorem remoteCall_of_frames (hplain : PlainFlags reply)
    (hhandles : none ∉ message.caps) (stale : ℕ → UInt64) :
    Delivered reply (remoteCall abi (message.deliver stale)) := by
  obtain ⟨received, hok, hreceived, hbytes, -⟩ := remoteCall_reads_frames hframes hpayload
    hwords hwordsMax hinline abi hplain hhandles stale
  exact ⟨received, hok, hreceived, hbytes⟩

theorem libfacetPlatformReply_of_frames (hshared : sharedPayload reply.flags = false)
    (hcaps : message.caps.length ≤ 1) (stale : ℕ → UInt64) :
    Delivered reply (libfacetPlatformReply (message.deliver stale)) := by
  have hsmall : reply.payloadSize ≤ 512 := hinline
  obtain ⟨hfirst, hversion, hflags, hregister⟩ := hframes.decoded (by omega) stale
  obtain ⟨hcount, hbound⟩ := wireWordCount_of_inline hinline
  have hpositive : 0 < reply.words.length := List.length_pos_iff.mpr hwords
  have htotal := length_reply_of_frames hframes hpayload stale
  have hreceivedWords : 1 + ((message.deliver stale).length - 4) -
      wordCount wordBytes reply.payloadSize = reply.words.length := by
    omega
  have hreceivedCaps : ¬ (message.deliver stale).caps.length > 1 := not_lt.mpr hcaps
  simp only [libfacetPlatformReply, hversion, hflags, hregister, hfirst, hshared,
    Bool.false_eq_true, false_or, hcount, hreceivedWords]
  rw [if_neg hreceivedCaps, if_neg (by omega), if_neg (not_lt.mpr hinline),
    if_neg (by rw [sizeMax]; omega), if_neg (not_lt.mpr hwordsMax),
    if_neg (not_not.mpr rfl)]
  refine ⟨_, rfl, cons_readWords_of_frames hframes hwords stale, ?_⟩
  simpa only [FacetRpcMessage.payloadBytes] using
    payload_of_reply_frames hframes hpayload hwords stale

end

/-! ## Shared-frame replies never arrive -/

theorem sharedPayload_sharedFlags (flags : UInt32) (pages : ℕ) :
    sharedPayload (sharedFlags flags pages) = true := by
  have hmask : (~~~((0x7f : UInt32) <<< (24 : UInt32))).toNat.testBit 31 = true := by
    decide
  have hshared : (0x80000000 : UInt32).toNat.testBit 31 = true := by
    decide
  simp only [sharedPayload, sharedFlags, UInt32.toNat_or, UInt32.toNat_and,
    Nat.testBit_lor, Nat.testBit_land, hmask, hshared]
  simp

/-- The reply that `tooSmallMessage` carries. -/
def tooSmallReply : RpcMessage where
  protocolVersion := rpcProtocolVersion
  methodId := 0
  flags := 0
  words := [FacetError.bufferTooSmall.code.toUInt32.toUInt64]
  payload := none
  payloadSize := 0
  attachments := []
  payload_readable := readable_none

theorem tooSmallMessage_frames : FramesReply tooSmallMessage tooSmallReply := by
  apply frames_of_applyWrites_eq rfl rfl
  · intro write hwrite
    exact (mem_blockWrites_bounds hwrite).2
  · intro stale
    rfl

/-- One outcome delivers one payload. -/
theorem Delivered.payloadBytes_eq {other : RpcMessage}
    {outcome : Except FacetError RpcMessage} (hleft : Delivered reply outcome)
    (hright : Delivered other outcome) : reply.payloadBytes = other.payloadBytes := by
  obtain ⟨left, hleftOk, -, hleftBytes⟩ := hleft
  obtain ⟨right, hrightOk, -, hrightBytes⟩ := hright
  rw [hleftOk] at hrightOk
  cases hrightOk
  exact hleftBytes.symm.trans hrightBytes

/-- A shared-frame reply still has its payload written inline, so `remoteCall`
counts the payload registers as words and rejects the message. -/
theorem remoteCall_shared_error (abi : Sel4Abi)
    (hframes : FramesReply message reply)
    (hpayload : reply.HasPayload) (hshared : sharedPayload reply.flags = true)
    (hsize : reply.payloadSize < 2 ^ 64) (hlarge : rpcMaxInlinePayload < reply.payloadSize)
    (stale : ℕ → UInt64) :
    remoteCall abi (message.deliver stale) = .error .protocolError := by
  obtain ⟨-, hversion, hflags, hregister⟩ := hframes.decoded hsize stale
  have hcount : 64 < wordCount wordBytes reply.payloadSize := by
    simp only [rpcMaxInlinePayload] at hlarge
    simp only [wordCount, wordBytes]
    omega
  have htotal := length_reply_of_frames hframes hpayload stale
  simp only [remoteCall, hversion, hflags, hregister, hshared, if_true]
  rw [if_neg (not_not.mpr rfl), if_neg (by simp [sizeMax]), if_pos]
  simp only [rpcMaxWords]
  omega

theorem libfacetPlatformReply_shared_error
    (hframes : FramesReply message reply)
    (hshared : sharedPayload reply.flags = true) (hsize : reply.payloadSize < 2 ^ 64)
    (hcaps : message.caps.length ≤ 1) (stale : ℕ → UInt64) :
    libfacetPlatformReply (message.deliver stale) = .error .notSupported := by
  obtain ⟨-, -, hflags, -⟩ := hframes.decoded hsize stale
  have htotal : ¬ (message.deliver stale).length < 4 := by
    change ¬ message.length < 4
    rw [hframes.length_eq]
    omega
  have hreceivedCaps : ¬ (message.deliver stale).caps.length > 1 := not_lt.mpr hcaps
  simp only [libfacetPlatformReply, hflags, hshared, true_or, if_true]
  rw [if_neg hreceivedCaps, if_neg htotal]

end Received

/-! ## Framing of replies -/

inductive ReplyServer
  | serverThread
  | service
  deriving DecidableEq

/-- What a server sends; frames can be allocated and mapped. -/
def ReplyServer.emit (abi : Sel4Abi) (result : Int32) :
    ReplyServer → RpcMessage → Sel4Message
  | .serverThread => serverReply abi (.ok ()) result
  | .service => encodeReply abi result

inductive ReplyReceiver
  | remoteCall
  | libfacetPlatformCall
  deriving DecidableEq

def ReplyReceiver.receive (abi : Sel4Abi) :
    ReplyReceiver → Sel4Received → Except FacetError RpcMessage
  | .remoteCall => Transport.remoteCall abi
  | .libfacetPlatformCall => Transport.libfacetPlatformReply

/-- The flags of a reply carry no mark of the transport that keeps it from the receiver. -/
def ReplyReceiver.Unmarked : ReplyReceiver → RpcMessage → Prop
  | .remoteCall, reply => PlainFlags reply
  | .libfacetPlatformCall, reply => sharedPayload reply.flags = false

/-- A reply as dispatchers produce them: within its word array, with a payload
behind every nonzero size, and with handles that are not null. -/
structure DispatchedReply (reply : RpcMessage) : Prop where
  hasPayload : reply.HasPayload
  words_ne : reply.words ≠ []
  words_le : reply.words.length ≤ rpcMaxWords
  handles : ∀ attachment ∈ reply.attachments, attachment.handle ≠ none

/-- The size limits for a reply whose payload travels inline. -/
structure InlineLimits (abi : Sel4Abi) (reply : RpcMessage) : Prop where
  payload_le : reply.payloadSize ≤ rpcMaxInlinePayload
  fits : reply.words.length + wordCount wordBytes reply.payloadSize + 3 ≤
    abi.msgMaxLength
  attachments_le : reply.attachments.length ≤ 1

/-- The size limits for a reply that is prepared as one shared frame. -/
structure SharedLimits (abi : Sel4Abi) (reply : RpcMessage) : Prop where
  payload_gt : rpcMaxInlinePayload < reply.payloadSize
  payload_le : reply.payloadSize ≤ sel4PageSize abi
  attachments_nil : reply.attachments = []

def ReplyServer.Admits (abi : Sel4Abi) : ReplyServer → RpcMessage → Prop
  | .serverThread, reply => InlineLimits abi reply ∨ SharedLimits abi reply
  | .service, reply => InlineLimits abi reply

section Replies

variable {abi : Sel4Abi} {message reply : RpcMessage} {result : Int32}

/-- Both servers frame an inline reply. -/
theorem emit_eq_framed (server : ReplyServer) (hreply : withResult result message = reply)
    (hdispatched : DispatchedReply reply) (hlimits : InlineLimits abi reply) :
    server.emit abi result message = framedReply reply := by
  cases server with
  | serverThread =>
    obtain ⟨hcount, hbound⟩ := wireWordCount_of_inline hlimits.payload_le
    simp only [ReplyServer.emit, serverReply, hreply, bulkPrepare]
    rw [if_neg (not_not.mpr hdispatched.hasPayload), if_pos hlimits.payload_le]
    exact replyToMessage_eq_framed hdispatched.hasPayload hdispatched.words_ne
      hdispatched.words_le (by rw [hcount, sizeMax]; omega) hlimits.fits
      hlimits.attachments_le
  | service =>
    exact encodeReply_eq_framed hreply hdispatched.hasPayload hdispatched.words_ne
      hdispatched.words_le hlimits.payload_le hlimits.fits hlimits.attachments_le

/-- A receiver gets an inline reply from either server exactly if it is not marked. -/
theorem delivered_inline_iff (server : ReplyServer) (receiver : ReplyReceiver)
    (hreply : withResult result message = reply) (hdispatched : DispatchedReply reply)
    (hlimits : InlineLimits abi reply) (stale : ℕ → UInt64) :
    Delivered reply (receiver.receive abi ((server.emit abi result message).deliver stale))
      ↔ receiver.Unmarked reply := by
  rw [emit_eq_framed server hreply hdispatched hlimits]
  have hframes := framedReply_frames reply
  have hcaps : (framedReply reply).caps.length ≤ 1 :=
    (List.length_map _).trans_le hlimits.attachments_le
  cases receiver with
  | remoteCall =>
    refine ⟨plainFlags_of_delivered hframes hdispatched.hasPayload hdispatched.words_ne
      hlimits.payload_le, fun hplain => remoteCall_of_frames hframes hdispatched.hasPayload
        hdispatched.words_ne hdispatched.words_le hlimits.payload_le hplain ?_ stale⟩
    intro hmem
    obtain ⟨attachment, hattachment, hnone⟩ := List.mem_map.mp hmem
    exact hdispatched.handles attachment hattachment hnone
  | libfacetPlatformCall =>
    have hsmall : reply.payloadSize ≤ 512 := hlimits.payload_le
    refine ⟨?_, fun hclear => libfacetPlatformReply_of_frames hframes hdispatched.hasPayload
      hdispatched.words_ne hdispatched.words_le hlimits.payload_le hclear hcaps stale⟩
    rintro ⟨received, hok, -⟩
    by_contra hmarked
    have herror := libfacetPlatformReply_shared_error hframes (Bool.not_eq_false _ ▸ hmarked)
      (by omega) hcaps stale
    cases herror.symm.trans hok

/-- One shared frame holds the payload, so the server thread marks the reply and
appends the frame. -/
theorem emit_shared (hreply : withResult result message = reply)
    (hdispatched : DispatchedReply reply) (hlimits : SharedLimits abi reply) :
    ∃ prepared : RpcMessage,
      ReplyServer.serverThread.emit abi result message = replyToMessage abi prepared ∧
      prepared.flags = sharedFlags reply.flags 1 ∧ prepared.words = reply.words ∧
      prepared.payload = reply.payload ∧ prepared.payloadSize = reply.payloadSize ∧
      prepared.attachments.length = 1 := by
  have hlarge : 512 < reply.payloadSize := hlimits.payload_gt
  have hpage : reply.payloadSize ≤ sel4PageSize abi := hlimits.payload_le
  have hpageMax : sel4PageSize abi ≤ 2 ^ 63 :=
    Nat.pow_le_pow_right (by decide) (Nat.le_of_lt_succ abi.pageBits_lt)
  have hguard : ¬ reply.payloadSize > sizeMax - sel4PageSize abi + 1 := by
    simp only [sizeMax]
    omega
  have hpages : (reply.payloadSize + sel4PageSize abi - 1) / sel4PageSize abi = 1 := by
    apply Nat.div_eq_of_lt_le <;> omega
  have hlimit : ¬ ((1 : ℕ) = sizeMax ∨ 1 > sel4MaxAttachments ∨
      reply.attachments.length > sel4MaxAttachments - 1) := by
    rw [hlimits.attachments_nil]
    decide
  simp only [ReplyServer.emit, serverReply, hreply, bulkPrepare]
  rw [if_neg (not_not.mpr hdispatched.hasPayload), if_neg (not_le.mpr hlimits.payload_gt),
    if_neg hguard, hpages, if_neg hlimit]
  exact ⟨_, rfl, rfl, rfl, rfl, rfl, by simp [hlimits.attachments_nil]⟩

/-- No receiver gets a reply that the server prepared as a shared frame: either the
inline copy of the payload exceeds the message, or its registers are taken for
words. -/
theorem not_delivered_of_shared (receiver : ReplyReceiver)
    (hreply : withResult result message = reply) (hdispatched : DispatchedReply reply)
    (hlimits : SharedLimits abi reply) (stale : ℕ → UInt64) :
    ¬ Delivered reply (receiver.receive abi
      ((ReplyServer.serverThread.emit abi result message).deliver stale)) := by
  obtain ⟨prepared, hemit, hflags, hwords, hpayload, hsize, hattachments⟩ :=
    emit_shared hreply hdispatched hlimits
  have hlarge : 512 < reply.payloadSize := hlimits.payload_gt
  have hpage : reply.payloadSize ≤ 2 ^ 63 := hlimits.payload_le.trans
    (Nat.pow_le_pow_right (by decide) (Nat.le_of_lt_succ abi.pageBits_lt))
  have hprepared : prepared.HasPayload := by
    rw [FacetRpcMessage.HasPayload, hsize, hpayload]
    exact hdispatched.hasPayload
  have hshared : sharedPayload prepared.flags = true := by
    rw [hflags]
    exact sharedPayload_sharedFlags _ _
  have hwordsNe : prepared.words ≠ [] := hwords ▸ hdispatched.words_ne
  have hwordsMax : prepared.words.length ≤ rpcMaxWords := hwords ▸ hdispatched.words_le
  have hmax : wireWordCount prepared.payloadSize ≠ sizeMax := by
    simp only [wireWordCount, wordCount, wordBytes, sizeMax, hsize]
    rw [if_neg (by omega)]
    omega
  rw [hemit]
  by_cases hfits : prepared.words.length + wordCount wordBytes prepared.payloadSize + 3 ≤
      abi.msgMaxLength
  · rw [replyToMessage_eq_framed hprepared hwordsNe hwordsMax hmax hfits hattachments.le]
    have hframes := framedReply_frames prepared
    rintro ⟨received, hok, -, -⟩
    cases receiver with
    | remoteCall =>
      have herror := remoteCall_shared_error abi hframes hprepared hshared
        (by omega) (by rw [hsize]; exact hlimits.payload_gt) stale
      rw [ReplyReceiver.receive, herror] at hok
      cases hok
    | libfacetPlatformCall =>
      have herror := libfacetPlatformReply_shared_error hframes hshared (by omega)
        ((List.length_map _).trans hattachments).le stale
      rw [ReplyReceiver.receive, herror] at hok
      cases hok
  · have htooSmall := replyToMessage_eq_tooSmall hwordsMax hmax hfits
    intro hdelivered
    have hreported : Delivered tooSmallReply
        (receiver.receive abi (tooSmallMessage.deliver stale)) := by
      cases receiver with
      | remoteCall =>
        exact remoteCall_of_frames tooSmallMessage_frames (by decide) (by decide)
          (by decide) (by decide) (by decide) (by decide) stale
      | libfacetPlatformCall =>
        exact libfacetPlatformReply_of_frames tooSmallMessage_frames (by decide)
          (by decide) (by decide) (by decide) (by decide) (by decide) stale
    rw [htooSmall] at hdelivered
    have hempty := hdelivered.payloadBytes_eq hreported
    have hlength := FacetRpcMessage.length_payloadBytes hdispatched.hasPayload
    rw [hempty] at hlength
    have hzero : (0 : ℕ) = reply.payloadSize := hlength
    omega

end Replies

/-- A reply that the size limits of its server admit reaches either receiver with
its words and payload exactly when the payload is at most 512 bytes, that is when
it is not prepared as a shared frame, and its flags carry no mark. -/
theorem reply_framing_iff (abi : Sel4Abi) (server : ReplyServer)
    (receiver : ReplyReceiver) (result : Int32) (message : RpcMessage)
    (hdispatched : DispatchedReply (withResult result message))
    (hadmits : server.Admits abi (withResult result message)) (stale : ℕ → UInt64) :
    Delivered (withResult result message)
        (receiver.receive abi ((server.emit abi result message).deliver stale)) ↔
      message.payloadSize ≤ rpcMaxInlinePayload ∧ receiver.Unmarked message := by
  have hsame : (withResult result message).payloadSize = message.payloadSize
      ∧ (receiver.Unmarked (withResult result message) ↔ receiver.Unmarked message) := by
    unfold withResult
    cases receiver <;> split <;> exact ⟨rfl, Iff.rfl⟩
  rw [← hsame.1, ← hsame.2]
  have hinline : InlineLimits abi (withResult result message) →
      (Delivered (withResult result message)
          (receiver.receive abi ((server.emit abi result message).deliver stale)) ↔
        (withResult result message).payloadSize ≤ rpcMaxInlinePayload ∧
          receiver.Unmarked (withResult result message)) := fun hlimits => by
    rw [delivered_inline_iff server receiver rfl hdispatched hlimits, and_iff_right
      hlimits.payload_le]
  cases server with
  | serverThread =>
    rcases hadmits with hlimits | hshared
    · exact hinline hlimits
    · exact iff_of_false (not_delivered_of_shared receiver rfl hdispatched hshared stale)
        fun hsmall => absurd hshared.payload_gt (not_lt.mpr hsmall.1)
  | service => exact hinline hadmits

/-- A reply with the result `FACET_OK` and `bytes` zero payload bytes. -/
def zeroReply (bytes : ℕ) : RpcMessage where
  protocolVersion := rpcProtocolVersion
  methodId := 0
  flags := 0
  words := [0]
  payload := some (List.replicate bytes 0)
  payloadSize := bytes
  attachments := []
  payload_readable := readable_replicate bytes

theorem zeroReply_dispatched (bytes : ℕ) (result : Int32) :
    DispatchedReply (withResult result (zeroReply bytes)) := by
  have hsame : withResult result (zeroReply bytes) = zeroReply bytes :=
    if_neg (List.cons_ne_nil _ _)
  rw [hsame]
  refine ⟨?_, List.cons_ne_nil _ _, ?_, List.forall_mem_nil _⟩
  · simp [zeroReply, FacetRpcMessage.HasPayload]
  · simp [zeroReply, rpcMaxWords]

theorem reply_framing_iff_inline_page :
    Delivered (withResult 0 (zeroReply 512))
      (ReplyReceiver.remoteCall.receive x86Abi
        ((ReplyServer.serverThread.emit x86Abi 0 (zeroReply 512)).deliver fun _ => 0)) := by
  have hlimits : InlineLimits x86Abi (withResult 0 (zeroReply 512)) :=
    ⟨by decide, by decide, by decide⟩
  exact (reply_framing_iff x86Abi .serverThread .remoteCall 0 (zeroReply 512)
    (zeroReply_dispatched 512 0) (.inl hlimits) (fun _ => 0)).mpr ⟨by decide, .inl (by decide)⟩

/-- The smallest reply that is prepared as a shared frame is not delivered. -/
theorem shared_reply_not_delivered :
    ReplyServer.serverThread.Admits x86Abi (withResult 0 (zeroReply 513)) ∧
      ¬ Delivered (withResult 0 (zeroReply 513))
        (ReplyReceiver.remoteCall.receive x86Abi
          ((ReplyServer.serverThread.emit x86Abi 0 (zeroReply 513)).deliver fun _ => 0)) := by
  have hlimits : SharedLimits x86Abi (withResult 0 (zeroReply 513)) :=
    ⟨by decide, by decide, by decide⟩
  exact ⟨.inr hlimits, not_delivered_of_shared .remoteCall rfl (zeroReply_dispatched 513 0)
    hlimits _⟩

end FacetOS.Transport
