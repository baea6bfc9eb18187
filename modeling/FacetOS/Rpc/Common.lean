import FacetOS.Core.LittleEndian

/-!
# Shared RPC vocabulary

Result codes, limits and the message record that the proxies, the server stubs
and the transports exchange.
-/

namespace FacetOS.Rpc

/-- The failure codes of `FacetResult`; success is the code zero. -/
inductive FacetError
  | error
  | invalidArgument
  | noInterface
  | noSuchMethod
  | accessDenied
  | outOfMemory
  | invalidHandle
  | protocolError
  | bufferTooSmall
  | notSupported
  | notFound
  deriving DecidableEq, Repr

def FacetError.code : FacetError → Int32
  | .error => -1
  | .invalidArgument => -2
  | .noInterface => -3
  | .noSuchMethod => -4
  | .accessDenied => -5
  | .outOfMemory => -6
  | .invalidHandle => -7
  | .protocolError => -8
  | .bufferTooSmall => -9
  | .notSupported => -10
  | .notFound => -11

/-- The word `(uint64_t)(int64_t)result` that carries a result code. -/
def resultWord (code : Int32) : UInt64 :=
  code.toInt64.toUInt64

/-- A result code is recovered from its word by `(int32_t)`. -/
theorem resultWord_toInt32 (code : Int32) : (resultWord code).toUInt32.toInt32 = code := by
  have hbits : (resultWord code).toUInt32.toInt32.toBitVec =
      (code.toBitVec.signExtend 64).setWidth 32 := by
    simp [resultWord]
  apply Int32.toBitVec_inj.mp
  rw [hbits]
  ext index hindex
  simp [BitVec.getLsbD_signExtend, hindex]
  omega

def rpcProtocolVersion : UInt32 := 1
def rpcMaxWords : ℕ := 64
def rpcMaxAttachments : ℕ := 8
def rpcMaxInlinePayload : ℕ := 512

/-- Largest value of `size_t`. -/
def sizeMax : ℕ := 2 ^ 64 - 1

/-- What a platform handle gives access to: an endpoint of some exported object,
or a memory frame with its contents. -/
inductive Capability
  | endpoint (object : ℕ)
  | frame (page : List UInt8)
  deriving DecidableEq, Repr

/-- `FacetHandle`; `none` is a null platform pointer. -/
abbrev FacetHandle := Option Capability

inductive FacetRpcAttachmentKind
  | handle
  | buffer
  deriving DecidableEq, Repr

/-- `FacetRpcAttachment` over the representation of handles: a pointer inside a
process, a capability on the wire. -/
structure FacetRpcAttachment (Handle : Type) where
  kind : FacetRpcAttachmentKind
  handle : Handle
  size : ℕ
  deriving DecidableEq, Repr

/-- `FacetRpcMessage`.  The list `words` holds the first `word_count` entries of
the word array and `attachments` the first `attachment_count` attachments.  A
payload pointer that is not null addresses at least `payloadSize` bytes. -/
structure FacetRpcMessage (Handle : Type) where
  protocolVersion : UInt32
  methodId : UInt32
  flags : UInt32
  words : List UInt64
  payload : Option (List UInt8)
  payloadSize : ℕ
  attachments : List (FacetRpcAttachment Handle)
  payload_readable : ∀ bytes, payload = some bytes → payloadSize ≤ bytes.length

theorem readable_none (bytes : List UInt8) (_ : none = some bytes) : 0 ≤ bytes.length :=
  Nat.zero_le _

theorem readable_ite {inline : Prop} [Decidable inline] {size : ℕ} {read : List UInt8}
    (hread : read.length = size) (bytes : List UInt8)
    (hbytes : (if inline then some read else none) = some bytes) : size ≤ bytes.length := by
  rw [← Option.some.inj (Option.ite_none_right_eq_some.mp hbytes).2, hread]

theorem readable_replicate (size : ℕ) (bytes : List UInt8)
    (hbytes : some (List.replicate size 0) = some bytes) : size ≤ bytes.length := by
  cases hbytes
  simp

section Payload

variable {Handle : Type}

/-- The bytes a message carries as its payload. -/
def FacetRpcMessage.payloadBytes (message : FacetRpcMessage Handle) : List UInt8 :=
  (message.payload.getD []).take message.payloadSize

/-- A message that does not pair a null payload with a nonzero size. -/
def FacetRpcMessage.HasPayload (message : FacetRpcMessage Handle) : Prop :=
  ¬ (message.payloadSize ≠ 0 ∧ message.payload = none)

instance (message : FacetRpcMessage Handle) : Decidable message.HasPayload :=
  inferInstanceAs (Decidable (¬ _))

theorem FacetRpcMessage.length_payloadBytes {message : FacetRpcMessage Handle}
    (hpayload : message.HasPayload) :
    message.payloadBytes.length = message.payloadSize := by
  cases hcase : message.payload with
  | none =>
    have hzero : message.payloadSize = 0 := by
      by_contra hne
      exact hpayload ⟨hne, hcase⟩
    simp [payloadBytes, hzero]
  | some bytes =>
    have hle := message.payload_readable bytes hcase
    simp [payloadBytes, hcase, hle]

end Payload

end FacetOS.Rpc
