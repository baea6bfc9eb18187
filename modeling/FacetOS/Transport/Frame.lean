import FacetOS.Core.Passes
import FacetOS.Core.Registers
import FacetOS.Rpc.Common

/-!
# Message frames on seL4 registers

Requests and replies share one frame: four control registers, a run of words
from register 4 on, and the payload packed behind the words.  A message frames
given contents when every register of that layout shows its value, whatever the
registers held before.
-/

namespace FacetOS.Transport

open LittleEndian Registers Rpc

/-- On the wire a handle is the capability it designates. -/
abbrev RpcMessage := FacetRpcMessage FacetHandle

abbrev RpcAttachment := FacetRpcAttachment FacetHandle

/-- Constants of the seL4 interface the transport is compiled against. -/
structure Sel4Abi where
  /-- `seL4_MsgMaxLength` -/
  msgMaxLength : ℕ
  /-- `seL4_MsgMaxExtraCaps` -/
  msgMaxExtraCaps : ℕ
  /-- `seL4_PageBits` -/
  pageBits : ℕ
  control_le : 4 ≤ msgMaxLength
  pageBits_lt : pageBits < 64

/-- The seL4 interface on 64-bit PCs. -/
def x86Abi : Sel4Abi where
  msgMaxLength := 120
  msgMaxExtraCaps := 3
  pageBits := 12
  control_le := by decide
  pageBits_lt := by decide

/-- A message as a sender leaves it for the kernel: the declared length, the
register writes in the order in which they are made, and the capabilities. -/
structure Sel4Message where
  length : ℕ
  writes : List (ℕ × UInt64)
  caps : List FacetHandle
  deriving DecidableEq

/-- A message as a receiver finds it. -/
structure Sel4Received where
  length : ℕ
  registers : ℕ → UInt64
  caps : List FacetHandle

/-- Delivery of a message over registers that held `stale` before. -/
def Sel4Message.deliver (message : Sel4Message) (stale : ℕ → UInt64) :
    Sel4Received where
  length := message.length
  registers := applyWrites message.writes stale
  caps := message.caps

/-- `FACET_SEL4_FLAG_SHARED_PAYLOAD` is bit 31 of the flags. -/
def sharedPayload (flags : UInt32) : Bool :=
  flags.toNat.testBit 31

/-- `FACET_SEL4_MAX_ATTACHMENTS` -/
def sel4MaxAttachments : ℕ := 1

/-- `sizeof(seL4_Word)` -/
def wordBytes : ℕ := 8

def wireWordCount (bytes : ℕ) : ℕ :=
  if bytes > sizeMax - (wordBytes - 1) then sizeMax else wordCount wordBytes bytes

/-- The service's own rounding, without an overflow guard. -/
def wireWords (bytes : ℕ) : ℕ :=
  (bytes + wordBytes - 1) % 2 ^ 64 / wordBytes

theorem wireWordCount_of_ne_sizeMax {bytes : ℕ} (hne : wireWordCount bytes ≠ sizeMax) :
    wireWordCount bytes = wordCount wordBytes bytes ∧ bytes < 2 ^ 64 := by
  unfold wireWordCount at hne ⊢
  split at hne
  · exact absurd rfl hne
  · rename_i hle
    rw [if_neg hle]
    refine ⟨rfl, ?_⟩
    simp only [sizeMax, wordBytes] at hle
    omega

/-- An inline payload needs at most 64 registers. -/
theorem wireWordCount_of_inline {bytes : ℕ} (hbytes : bytes ≤ rpcMaxInlinePayload) :
    wireWordCount bytes = wordCount wordBytes bytes ∧ wordCount wordBytes bytes ≤ 64 := by
  simp only [rpcMaxInlinePayload] at hbytes
  constructor
  · rw [wireWordCount, if_neg]
    simp only [sizeMax, wordBytes]
    omega
  · simp only [wordCount, wordBytes]
    omega

theorem wireWords_of_inline {bytes : ℕ} (hbytes : bytes ≤ rpcMaxInlinePayload) :
    wireWords bytes = wordCount wordBytes bytes := by
  simp only [rpcMaxInlinePayload] at hbytes
  rw [wireWords, wordCount, wordBytes, Nat.mod_eq_of_lt (by omega)]

/-- The payload packed into `count` registers. -/
def payloadRegisters (bytes : List UInt8) (count : ℕ) : List UInt64 :=
  (List.range count).map fun index => UInt64.ofNat (packedWord wordBytes bytes index)

variable (received : Sel4Received)

/-- The `count` registers from `base` on. -/
def readWords (base count : ℕ) : List UInt64 :=
  (List.range count).map fun index => received.registers (base + index)

/-- `size` payload bytes from the registers from `base` on. -/
def readPayload (base size : ℕ) : List UInt8 :=
  unpackWords wordBytes size fun index => (received.registers (base + index)).toNat

@[simp]
theorem length_readWords (base count : ℕ) : (readWords received base count).length = count := by
  simp [readWords]

@[simp]
theorem length_readPayload (base size : ℕ) : (readPayload received base size).length = size :=
  length_unpackWords size _ (by decide)

/-! ## What a framed message shows to its receiver -/

/-- `message` carries four control values, a run of words and a byte string. -/
structure Frames (message : Sel4Message) (control words : List UInt64)
    (bytes : List UInt8) : Prop where
  length_eq : message.length = 4 + words.length + wordCount wordBytes bytes.length
  write_lt : ∀ write ∈ message.writes, write.1 < message.length
  control_read : ∀ stale index value, control[index]? = some value →
    applyWrites message.writes stale index = value
  word_read : ∀ stale index value, words[index]? = some value →
    applyWrites message.writes stale (4 + index) = value
  payload_read : ∀ stale, ∀ index < wordCount wordBytes bytes.length,
    applyWrites message.writes stale (4 + words.length + index) =
      UInt64.ofNat (packedWord wordBytes bytes index)

/-- The writes of a frame in register order. -/
def frameWrites (control words : List UInt64) (bytes : List UInt8) :
    List (ℕ × UInt64) :=
  blockWrites 0 control ++ blockWrites 4 words ++
    blockWrites (4 + words.length)
      (payloadRegisters bytes (wordCount wordBytes bytes.length))

variable {bytes : List UInt8}

@[simp]
theorem length_payloadRegisters (bytes : List UInt8) (count : ℕ) :
    (payloadRegisters bytes count).length = count := by
  simp [payloadRegisters]

/-- Any list of writes that leaves the registers as the writes in register order
do, and stays inside the frame, frames its contents. -/
theorem frames_of_applyWrites_eq {message : Sel4Message} {control words : List UInt64}
    (hcontrol : control.length = 4)
    (hlength : message.length = 4 + words.length + wordCount wordBytes bytes.length)
    (hbound : ∀ write ∈ message.writes, write.1 < message.length)
    (hwrites : ∀ stale, applyWrites message.writes stale =
      applyWrites (frameWrites control words bytes) stale) :
    Frames message control words bytes := by
  refine ⟨hlength, hbound, ?_, ?_, ?_⟩
  · intro stale index value hvalue
    have hindex : index < 4 := by
      rw [← hcontrol]
      exact (List.getElem?_eq_some_iff.mp hvalue).1
    rw [hwrites, frameWrites, applyWrites_append, applyWrites_append,
      applyWrites_block_outside (by omega), applyWrites_block_outside (by omega)]
    have hread := applyWrites_block_inside 0 hvalue stale
    rwa [Nat.zero_add] at hread
  · intro stale index value hvalue
    have hindex : index < words.length := (List.getElem?_eq_some_iff.mp hvalue).1
    rw [hwrites, frameWrites, applyWrites_append, applyWrites_append,
      applyWrites_block_outside (by omega)]
    exact applyWrites_block_inside 4 hvalue _
  · intro stale index hindex
    rw [hwrites, frameWrites, applyWrites_append]
    exact applyWrites_block_inside _ (by simp [payloadRegisters, hindex]) _

/-- The writes of a frame stay below the frame's length. -/
theorem mem_frameWrites_lt {control words : List UInt64}
    (hcontrol : control.length = 4) {write : ℕ × UInt64}
    (hwrite : write ∈ frameWrites control words bytes) :
    write.1 < 4 + words.length + wordCount wordBytes bytes.length := by
  rw [frameWrites, List.mem_append, List.mem_append] at hwrite
  rcases hwrite with (hwrite | hwrite) | hwrite
  · have hbounds := mem_blockWrites_bounds hwrite
    omega
  · have hbounds := mem_blockWrites_bounds hwrite
    omega
  · have hbounds := mem_blockWrites_bounds hwrite
    rw [length_payloadRegisters] at hbounds
    omega

/-- The frame whose registers are written in order. -/
theorem frames_mk {control words : List UInt64} {length : ℕ}
    (caps : List FacetHandle) (hcontrol : control.length = 4)
    (hlength : length = 4 + words.length + wordCount wordBytes bytes.length) :
    Frames ⟨length, frameWrites control words bytes, caps⟩ control words bytes := by
  refine frames_of_applyWrites_eq hcontrol hlength (fun write hwrite => ?_) (fun _ => rfl)
  exact hlength ▸ mem_frameWrites_lt hcontrol hwrite

section Reading

variable {message : Sel4Message} {control words : List UInt64}

/-- The control registers as a receiver decodes them. -/
theorem Frames.decoded {first : UInt64} {version flags : UInt32} {size : ℕ}
    (hframes : Frames message [first, version.toUInt64, flags.toUInt64, UInt64.ofNat size] words
      bytes) (hsize : size < 2 ^ 64) (stale : ℕ → UInt64) :
    (message.deliver stale).registers 0 = first ∧
      ((message.deliver stale).registers 1).toUInt32 = version ∧
      ((message.deliver stale).registers 2).toUInt32 = flags ∧
      ((message.deliver stale).registers 3).toNat = size := by
  have hfirst := hframes.control_read stale 0 _ rfl
  have hversion := hframes.control_read stale 1 _ rfl
  have hflags := hframes.control_read stale 2 _ rfl
  have hpayload := hframes.control_read stale 3 _ rfl
  simp only [Sel4Message.deliver, hfirst, hversion, hflags, hpayload,
    UInt32.toUInt32_toUInt64, true_and]
  exact UInt64.toNat_ofNat_of_lt hsize

variable (hframes : Frames message control words bytes)
include hframes

theorem readWords_of_frames (stale : ℕ → UInt64) :
    readWords (message.deliver stale) 4 words.length = words := by
  apply List.ext_getElem?
  intro index
  by_cases hindex : index < words.length
  · have hvalue : words[index]? = some words[index] := List.getElem?_eq_getElem hindex
    have hread := hframes.word_read stale index _ hvalue
    simp [readWords, Sel4Message.deliver, hindex, hread]
  · rw [List.getElem?_eq_none (by simpa using hindex),
      List.getElem?_eq_none (by simpa using hindex)]

theorem readPayload_of_frames (stale : ℕ → UInt64) :
    readPayload (message.deliver stale) (4 + words.length) bytes.length = bytes := by
  apply unpackWords_packedWord bytes _ (by decide)
  intro index hindex
  have hread := hframes.payload_read stale index hindex
  have hlt : packedWord wordBytes bytes index < 2 ^ 64 :=
    packedWord_lt wordBytes bytes index
  simp only [Sel4Message.deliver, hread]
  exact UInt64.toNat_ofNat_of_lt hlt

/-- Receivers allocate a payload only for a nonzero size, and then find the
sender's bytes. -/
theorem payload_of_frames (stale : ℕ → UInt64) :
    ((if bytes.length ≠ 0 then
        some (readPayload (message.deliver stale) (4 + words.length) bytes.length)
      else none).getD []).take bytes.length = bytes := by
  split
  · rw [Option.getD_some, readPayload_of_frames hframes, List.take_length]
  · rename_i hzero
    rw [List.eq_nil_of_length_eq_zero (not_not.mp hzero), Option.getD_none, List.take_nil]

end Reading

end FacetOS.Transport
