import FacetOS.Core.Runs
import FacetOS.Transport.Call

/-!
# The service loop of a child

`facet_sel4_service_run` receives every message over one endpoint.  The badge of the
message selects the exported object, and a capability that comes with it lands in the
one receive slot, which the kernel fills only while it is empty.  Objects are exported
and removed between the messages.
-/

namespace FacetOS.Transport

open LittleEndian Registers Rpc Runs
open Passes (ite_error_eq_ok)

/-! ## State -/

def serviceExportMax : ℕ := 64

structure ServiceHandle where
  endpoint : UInt64
  ownsCap : Bool
  objectId : UInt32
  deriving DecidableEq, Repr

/-- An entry of the export table.  A removed one has no dispatcher and the null
capability. -/
structure ServiceExport (Object : Type) where
  dispatch : Option Object
  handleCap : UInt64
  deriving DecidableEq, Repr

/-- `receiveSlot` is the content of the receive slot.  An object stands for the
context and the dispatcher that were exported together. -/
structure ServiceState (Object : Type) where
  receiveSlot : Option Capability
  nextExportSlot : UInt64
  exports : List (ServiceExport Object)
  within : exports.length ≤ serviceExportMax

variable {Object : Type}

/-- `seL4_WordBits` -/
def sel4WordBits : UInt64 := 64

def facetSel4ServiceInit (endpoint cnode receiveSlot firstExportSlot depth : UInt64) :
    Except FacetError (ServiceState Object) :=
  if endpoint = 0 ∨ endpoint > 0xffffffff ∨ cnode = 0 ∨ cnode > 0xffffffff ∨
      receiveSlot = 0 ∨ receiveSlot > 0xffffffff ∨ firstExportSlot = 0 ∨
      firstExportSlot > 0xffffffff ∨ depth = 0 ∨ depth > sel4WordBits then
    .error .invalidArgument
  else
    .ok { receiveSlot := none
          nextExportSlot := firstExportSlot
          exports := []
          within := Nat.zero_le _ }

/-! ## Exports -/

/-- The call of `seL4_CNode_Mint`: the slot and the badge of the new capability. -/
structure Mint where
  destination : UInt64
  badge : UInt64
  deriving DecidableEq, Repr

/-- Whether minting and the allocation of the handle succeed is up to the kernel and
the heap.  The slot counter advances before either of them. -/
def libfacetPlatformExport (state : ServiceState Object) (object : Option Object)
    (minted memory : Bool) :
    (Option Mint × Except FacetError ServiceHandle) × ServiceState Object :=
  match object with
  | none => ((none, .error .invalidArgument), state)
  | some object =>
    if hfull : state.exports.length = serviceExportMax then
      ((none, .error .invalidArgument), state)
    else
      let objectId := UInt32.ofNat (state.exports.length + 1)
      let destination := state.nextExportSlot
      let mint : Mint := ⟨destination, objectId.toUInt64⟩
      let advanced := { state with nextExportSlot := destination + 1 }
      if !minted then ((some mint, .error .error), advanced)
      else if !memory then ((some mint, .error .outOfMemory), advanced)
      else
        ((some mint, .ok ⟨destination, false, objectId⟩),
          { advanced with
            exports := state.exports ++ [⟨some object, destination⟩]
            within := by
              rw [List.length_append]
              exact Nat.lt_of_le_of_ne state.within hfull })

def libfacetPlatformUnexport (state : ServiceState Object) (handle : Option ServiceHandle) :
    Except FacetError Unit × ServiceState Object :=
  match handle with
  | none => (.error .invalidHandle, state)
  | some native =>
    if native.objectId = 0 ∨ native.objectId.toNat > state.exports.length then
      (.error .invalidHandle, state)
    else
      (.ok (),
        { state with
          exports := state.exports.set (native.objectId.toNat - 1) ⟨none, 0⟩
          within := by
            rw [List.length_set]
            exact state.within })

/-! ## Messages -/

/-- A message at the service endpoint, and whether the two allocations made for it
succeed. -/
structure Arrival where
  badge : UInt64
  length : ℕ
  registers : ℕ → UInt64
  caps : List Capability
  payloadMemory : Bool
  handleMemory : Bool

def Arrival.received (arrival : Arrival) : Sel4Received where
  length := arrival.length
  registers := arrival.registers
  caps := []

/-- `decode_request`.  The attached handle names the receive slot, so it designates
what is in there. -/
def decodeArrival (arrival : Arrival) (slot : Option Capability) :
    Except FacetError RpcMessage :=
  match decodeRequest arrival.received with
  | .error failure => .error failure
  | .ok request =>
    if request.payloadSize ≠ 0 ∧ arrival.payloadMemory = false then .error .outOfMemory
    else if arrival.caps.length > 1 then .error .protocolError
    else if arrival.caps.length = 1 then
      if arrival.handleMemory = false then .error .outOfMemory
      else .ok { request with attachments := [⟨.handle, slot, 0⟩] }
    else .ok { request with attachments := [] }

/-- The zeroed reply of the loop. -/
def blankReply : RpcMessage where
  protocolVersion := rpcProtocolVersion
  methodId := 0
  flags := 0
  words := []
  payload := none
  payloadSize := 0
  attachments := []
  payload_readable := readable_none

/-- The object behind a badge. -/
def exportedObject (state : ServiceState Object) (badge : UInt64) : Option Object :=
  if badge = 0 ∨ badge.toNat > state.exports.length then none
  else (state.exports[badge.toNat - 1]?).bind ServiceExport.dispatch

/-- What the loop did with a message: the object it was dispatched to with what this
one saw, and the reply. -/
structure Answer (Object : Type) where
  dispatched : Option (Object × RequestView)
  reply : Sel4Message

/-- The kernel puts the first transferred capability into an empty receive slot. -/
def receiveCap (slot : Option Capability) (caps : List Capability) : Option Capability :=
  match slot with
  | some held => some held
  | none => caps.head?

/-- One round of `facet_sel4_service_run`.  The receive slot is emptied behind a
request with an attachment. -/
def facetSel4ServiceRun (abi : Sel4Abi) (serve : Object → Dispatch)
    (state : ServiceState Object) (arrival : Arrival) : Answer Object × ServiceState Object :=
  let slot := receiveCap state.receiveSlot arrival.caps
  match decodeArrival arrival slot with
  | .error failure =>
    (⟨none, encodeReply abi failure.code blankReply⟩, { state with receiveSlot := slot })
  | .ok request =>
    let left := { state with
      receiveSlot := if request.attachments.isEmpty then slot else none }
    match exportedObject state arrival.badge with
    | none => (⟨none, encodeReply abi FacetError.invalidHandle.code blankReply⟩, left)
    | some object =>
      let outcome := serve object (requestView request)
      (⟨some (object, requestView request), encodeReply abi outcome.1 outcome.2⟩, left)

/-! ## Runs -/

inductive ServiceEvent (Object : Type)
  | platformExport (object : Option Object) (minted memory : Bool)
  | platformUnexport (handle : Option ServiceHandle)
  | message (arrival : Arrival)

inductive ServiceOutput (Object : Type)
  | exported (mint : Option Mint) (result : Except FacetError ServiceHandle)
  | unexported (result : Except FacetError Unit)
  | answered (answer : Answer Object)

def ServiceEvent.step (abi : Sel4Abi) (serve : Object → Dispatch)
    (state : ServiceState Object) :
    ServiceEvent Object → ServiceOutput Object × ServiceState Object
  | .platformExport object minted memory =>
    let outcome := libfacetPlatformExport state object minted memory
    (.exported outcome.1.1 outcome.1.2, outcome.2)
  | .platformUnexport handle =>
    let outcome := libfacetPlatformUnexport state handle
    (.unexported outcome.1, outcome.2)
  | .message arrival =>
    let outcome := facetSel4ServiceRun abi serve state arrival
    (.answered outcome.1, outcome.2)

/-! ## The receive slot -/

/-- A message that `decode_request` accepts. -/
structure Arrival.WellFormed (arrival : Arrival) : Prop where
  control : 4 ≤ arrival.length
  version : (arrival.registers 1).toUInt32 = rpcProtocolVersion
  payload_le : (arrival.registers 3).toNat ≤ rpcMaxInlinePayload
  payload_fits : wireWords (arrival.registers 3).toNat ≤ arrival.length - 4
  words_le : arrival.length - 4 - wireWords (arrival.registers 3).toNat ≤ rpcMaxWords
  payload_memory : (arrival.registers 3).toNat ≠ 0 → arrival.payloadMemory = true
  caps_le : arrival.caps.length ≤ 1
  handle_memory : arrival.caps.length = 1 → arrival.handleMemory = true

variable {arrival : Arrival}

/-- Everything that `decode_request` checks before it looks at capabilities. -/
theorem decodeRequest_received_eq_ok {request : RpcMessage}
    (hok : decodeRequest arrival.received = .ok request) :
    4 ≤ arrival.length ∧ (arrival.registers 1).toUInt32 = rpcProtocolVersion ∧
      (arrival.registers 3).toNat ≤ rpcMaxInlinePayload ∧
      wireWords (arrival.registers 3).toNat ≤ arrival.length - 4 ∧
      arrival.length - 4 - wireWords (arrival.registers 3).toNat ≤ rpcMaxWords ∧
      request.payloadSize = (arrival.registers 3).toNat := by
  simp only [decodeRequest, ite_error_eq_ok, ne_eq, not_or, not_not, not_lt] at hok
  obtain ⟨hcontrol, ⟨hversion, hsize⟩, hfits, hwords, -, hok⟩ := hok
  cases hok
  exact ⟨hcontrol, hversion, hsize, hfits, hwords, rfl⟩

theorem decodeRequest_received (hwell : arrival.WellFormed) :
    ∃ request, decodeRequest arrival.received = .ok request := by
  have hheader : ¬ ((arrival.registers 1).toUInt32 ≠ rpcProtocolVersion ∨
      (arrival.registers 3).toNat > rpcMaxInlinePayload) := by
    rw [not_or, not_not]
    exact ⟨hwell.version, Nat.not_lt.mpr hwell.payload_le⟩
  rw [decodeRequest, Arrival.received, if_neg (Nat.not_lt.mpr hwell.control), if_neg hheader,
    if_neg (Nat.not_lt.mpr hwell.payload_fits), if_neg (Nat.not_lt.mpr hwell.words_le),
    if_neg (by simp)]
  exact ⟨_, rfl⟩

/-- An accepted message has one attachment for each of its capabilities, and all of
them name the receive slot. -/
theorem decodeArrival_eq_ok {slot : Option Capability} {request : RpcMessage}
    (hok : decodeArrival arrival slot = .ok request) :
    arrival.WellFormed ∧
      request.attachments = arrival.caps.map fun _ => ⟨.handle, slot, 0⟩ := by
  rw [decodeArrival] at hok
  split at hok
  · cases hok
  rename_i decoded hdecoded
  obtain ⟨hcontrol, hversion, hsize, hfits, hwords, hpayload⟩ :=
    decodeRequest_received_eq_ok hdecoded
  rw [ite_error_eq_ok, ite_error_eq_ok, not_lt] at hok
  obtain ⟨hmemory, hcaps, hok⟩ := hok
  rw [hpayload, not_and, Bool.not_eq_false] at hmemory
  split at hok
  · rename_i hone
    obtain ⟨hhandle, hok⟩ := ite_error_eq_ok.mp hok
    cases hok
    obtain ⟨cap, hcap⟩ := List.length_eq_one_iff.mp hone
    refine ⟨⟨hcontrol, hversion, hsize, hfits, hwords, hmemory, hcaps,
      fun _ => Bool.eq_true_of_not_eq_false hhandle⟩, ?_⟩
    rw [hcap]
    rfl
  · rename_i hone
    cases hok
    have hnone : arrival.caps = [] := List.eq_nil_of_length_eq_zero (by omega)
    refine ⟨⟨hcontrol, hversion, hsize, hfits, hwords, hmemory, hcaps,
      fun hsome => absurd hsome hone⟩, ?_⟩
    rw [hnone]
    rfl

theorem decodeArrival_of_wellFormed (hwell : arrival.WellFormed) (slot : Option Capability) :
    ∃ request, decodeArrival arrival slot = .ok request := by
  obtain ⟨request, hrequest⟩ := decodeRequest_received hwell
  obtain ⟨-, -, -, -, -, hsize⟩ := decodeRequest_received_eq_ok hrequest
  have hmemory : ¬ (request.payloadSize ≠ 0 ∧ arrival.payloadMemory = false) := by
    rintro ⟨hpayload, hfailed⟩
    rw [hsize] at hpayload
    rw [hwell.payload_memory hpayload] at hfailed
    cases hfailed
  rw [decodeArrival, hrequest]
  dsimp only
  rw [if_neg hmemory, if_neg (Nat.not_lt.mpr hwell.caps_le)]
  by_cases hone : arrival.caps.length = 1
  · rw [if_pos hone, if_neg (by simp [hwell.handle_memory hone])]
    exact ⟨_, rfl⟩
  · rw [if_neg hone]
    exact ⟨_, rfl⟩

section

variable {abi : Sel4Abi} {serve : Object → Dispatch} {state : ServiceState Object}

/-- The receive slot behind a message: emptied if the message is accepted and carries
a capability. -/
theorem receiveSlot_serviceRun_of_wellFormed (hwell : arrival.WellFormed) :
    (facetSel4ServiceRun abi serve state arrival).2.receiveSlot =
      if arrival.caps = [] then state.receiveSlot else none := by
  obtain ⟨request, hrequest⟩ := decodeArrival_of_wellFormed hwell
    (receiveCap state.receiveSlot arrival.caps)
  have hattachments := (decodeArrival_eq_ok hrequest).2
  have hempty : request.attachments.isEmpty = decide (arrival.caps = []) := by
    rw [hattachments]
    cases arrival.caps <;> rfl
  have hslot : (facetSel4ServiceRun abi serve state arrival).2.receiveSlot =
      if request.attachments.isEmpty then receiveCap state.receiveSlot arrival.caps
      else none := by
    rw [facetSel4ServiceRun, hrequest]
    dsimp only
    split <;> rfl
  rw [hslot, hempty]
  by_cases hcaps : arrival.caps = []
  · cases hheld : state.receiveSlot <;> simp [hcaps, receiveCap]
  · simp [hcaps]

theorem receiveSlot_serviceRun_of_not_wellFormed (hwell : ¬ arrival.WellFormed) :
    (facetSel4ServiceRun abi serve state arrival).2.receiveSlot =
      receiveCap state.receiveSlot arrival.caps := by
  rw [facetSel4ServiceRun]
  cases hdecoded : decodeArrival arrival (receiveCap state.receiveSlot arrival.caps) with
  | error failure => rfl
  | ok request => exact absurd (decodeArrival_eq_ok hdecoded).1 hwell

/-- Only messages touch the receive slot. -/
theorem receiveSlot_export (object : Option Object) (minted memory : Bool) :
    (libfacetPlatformExport state object minted memory).2.receiveSlot = state.receiveSlot := by
  unfold libfacetPlatformExport
  split
  · rfl
  · split
    · rfl
    · cases minted <;> cases memory <;> rfl

theorem receiveSlot_unexport (handle : Option ServiceHandle) :
    (libfacetPlatformUnexport state handle).2.receiveSlot = state.receiveSlot := by
  unfold libfacetPlatformUnexport
  split
  · rfl
  · split <;> rfl

end

/-- The loop receives with an empty slot, and what it dispatches shows the
capabilities of this very message. -/
def ReceivesClean (abi : Sel4Abi) (serve : Object → Dispatch) (state : ServiceState Object) :
    ServiceEvent Object → Prop
  | .message arrival =>
    state.receiveSlot = none ∧
      ∀ object view,
        (facetSel4ServiceRun abi serve state arrival).1.dispatched = some (object, view) →
        view.attachments = arrival.caps.map fun cap => (.handle, some cap)
  | _ => True

/-- Along the run the slot is empty at every receive, and so it is at the receive that
follows the run. -/
def SlotClean (abi : Sel4Abi) (serve : Object → Dispatch) (state : ServiceState Object)
    (events : List (ServiceEvent Object)) : Prop :=
  Along (ServiceEvent.step abi serve) (ReceivesClean abi serve) state events ∧
    (outputs (ServiceEvent.step abi serve) state events).2.receiveSlot = none

/-- A message that carries a capability is accepted. -/
def Understood : ServiceEvent Object → Prop
  | .message arrival => arrival.caps ≠ [] → arrival.WellFormed
  | _ => True

section

variable {abi : Sel4Abi} {serve : Object → Dispatch} {state : ServiceState Object}
  {event : ServiceEvent Object}

/-- From an empty slot a message is received clean. -/
theorem receivesClean_of_empty (hempty : state.receiveSlot = none)
    (event : ServiceEvent Object) : ReceivesClean abi serve state event := by
  cases event with
  | platformExport object minted memory => trivial
  | platformUnexport handle => trivial
  | message arrival =>
    refine ⟨hempty, ?_⟩
    intro object view hdispatched
    rw [facetSel4ServiceRun, hempty] at hdispatched
    cases hdecoded : decodeArrival arrival (receiveCap none arrival.caps) with
    | error failure =>
      rw [hdecoded] at hdispatched
      cases hdispatched
    | ok request =>
      obtain ⟨hwell, hattachments⟩ := decodeArrival_eq_ok hdecoded
      rw [hdecoded] at hdispatched
      dsimp only at hdispatched
      split at hdispatched
      · cases hdispatched
      cases hdispatched
      have hone := hwell.caps_le
      rw [requestView, designated, hattachments]
      cases hcaps : arrival.caps with
      | nil => rfl
      | cons cap rest =>
        rw [hcaps, List.length_cons] at hone
        obtain rfl : rest = [] := List.eq_nil_of_length_eq_zero (by omega)
        rfl

/-- The slot stays empty over an event exactly if the event is understood. -/
theorem receiveSlot_step_iff (hempty : state.receiveSlot = none) :
    (event.step abi serve state).2.receiveSlot = none ↔ Understood event := by
  cases event with
  | platformExport object minted memory =>
    simp [ServiceEvent.step, receiveSlot_export, hempty, Understood]
  | platformUnexport handle =>
    simp [ServiceEvent.step, receiveSlot_unexport, hempty, Understood]
  | message arrival =>
    rw [ServiceEvent.step, Understood]
    by_cases hwell : arrival.WellFormed
    · rw [receiveSlot_serviceRun_of_wellFormed hwell, hempty, ite_self]
      simp [hwell]
    · rw [receiveSlot_serviceRun_of_not_wellFormed hwell, hempty]
      cases hcaps : arrival.caps <;> simp [receiveCap, hwell]

/-- A capability that is left in the slot is still there at the next receive. -/
theorem empty_of_slotClean {events : List (ServiceEvent Object)}
    (hclean : SlotClean abi serve state events) : state.receiveSlot = none := by
  induction events generalizing state with
  | nil => exact hclean.2
  | cons event events ih =>
    have hnext := ih ⟨hclean.1.2, hclean.2⟩
    cases event with
    | platformExport object minted memory =>
      exact (receiveSlot_export object minted memory).symm.trans hnext
    | platformUnexport handle => exact (receiveSlot_unexport handle).symm.trans hnext
    | message arrival => exact hclean.1.1.1

end

/-- From an empty slot, the receive slot is empty at every receive and every dispatch
sees the capability of its own request, exactly if every message that carries a
capability is accepted by `decode_request`. -/
theorem receive_slot_empty_iff (abi : Sel4Abi) (serve : Object → Dispatch)
    (state : ServiceState Object) (hempty : state.receiveSlot = none)
    (events : List (ServiceEvent Object)) :
    SlotClean abi serve state events ↔ ∀ event ∈ events, Understood event := by
  induction events generalizing state with
  | nil => simp [SlotClean, Along, hempty]
  | cons event events ih =>
    have hstep : (event.step abi serve state).2.receiveSlot = none ↔ Understood event :=
      receiveSlot_step_iff hempty
    rw [List.forall_mem_cons]
    constructor
    · intro hclean
      have hrest : SlotClean abi serve (event.step abi serve state).2 events :=
        ⟨hclean.1.2, hclean.2⟩
      have hnext := empty_of_slotClean hrest
      exact ⟨hstep.mp hnext, (ih _ hnext).mp hrest⟩
    · rintro ⟨hevent, hevents⟩
      have hrest := (ih _ (hstep.mpr hevent)).mpr hevents
      exact ⟨⟨receivesClean_of_empty hempty event, hrest.1⟩, hrest.2⟩

/-- A message for the first export that carries a capability.  With a length below 4
it is not accepted. -/
def sampleArrival (length object : ℕ) : Arrival where
  badge := 1
  length := length
  registers index := if index = 1 then rpcProtocolVersion.toUInt64 else 0
  caps := [.endpoint object]
  payloadMemory := true
  handleMemory := true

theorem wellFormed_sampleArrival (object : ℕ) : (sampleArrival 4 object).WellFormed where
  control := le_rfl
  version := rfl
  payload_le := by simp [sampleArrival]
  payload_fits := by simp [sampleArrival, wireWords, wordBytes]
  words_le := by simp [sampleArrival]
  payload_memory := fun _ => rfl
  caps_le := le_rfl
  handle_memory := fun _ => rfl

def idleService : ServiceState Unit where
  receiveSlot := none
  nextExportSlot := 100
  exports := [⟨some (), 99⟩]
  within := by decide

def quietDispatch : Unit → Dispatch := fun _ _ => (0, blankReply)

theorem receive_slot_empty_sample :
    SlotClean x86Abi quietDispatch idleService
      [.message (sampleArrival 4 1), .message (sampleArrival 4 2)] := by
  apply (receive_slot_empty_iff x86Abi quietDispatch idleService rfl _).mpr
  simp [Understood, wellFormed_sampleArrival]

/-- The capability of a message without registers stays in the slot, and the next
request is dispatched with it instead of its own. -/
theorem receive_slot_keeps_capability :
    let first := (ServiceEvent.message (sampleArrival 0 1)).step x86Abi quietDispatch idleService
    first.2.receiveSlot = some (.endpoint 1) ∧
      ∃ view, (facetSel4ServiceRun x86Abi quietDispatch first.2
          (sampleArrival 4 2)).1.dispatched = some ((), view) ∧
        view.attachments = [(.handle, some (.endpoint 1))] :=
  ⟨rfl, _, rfl, rfl⟩

end FacetOS.Transport
