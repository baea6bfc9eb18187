import FacetOS.Transport.Reply

/-!
# Capability slots of a loaded child

`load_and_start_domain` lays out the free part of a child's capability space:
a range in which the client library receives capabilities and, for a child that
serves, a receive slot, the service endpoint and a range for exports.  The client
receives every capability at a slot of its own, which only ever advances.
-/

namespace FacetOS.Transport

open Rpc

/-! ## The loader -/

def domainClientReceiveSlotCount : ℕ := 64

def domainServiceExportSlotCount : ℕ := 64

structure ServiceSlots where
  receive : ℕ
  endpoint : ℕ
  firstExport : ℕ
  deriving DecidableEq, Repr

/-- The slots that the loader passes to a child. -/
structure DomainSlots where
  receive : ℕ
  service : Option ServiceSlots
  deriving DecidableEq, Repr

/-- The part of `load_and_start_domain` that reserves slots, from the first free
one.  Copying the endpoint takes the next free slot. -/
def reserveSlots (cspaceNextFree : ℕ) (serviceEndpoint : Bool) : DomainSlots :=
  let afterClient := cspaceNextFree + domainClientReceiveSlotCount
  { receive := cspaceNextFree
    service :=
      if serviceEndpoint then
        some { receive := afterClient, endpoint := afterClient + 1, firstExport := afterClient + 2 }
      else none }

/-- The client range that the loader reserved. -/
def DomainSlots.Client (slots : DomainSlots) (slot : ℕ) : Prop :=
  slots.receive ≤ slot ∧ slot < slots.receive + domainClientReceiveSlotCount

/-- The slots that belong to the service side. -/
def DomainSlots.Service (slots : DomainSlots) (slot : ℕ) : Prop :=
  ∃ service, slots.service = some service ∧
    (slot = service.receive ∨ slot = service.endpoint ∨
      (service.firstExport ≤ slot ∧ slot < service.firstExport + domainServiceExportSlotCount))

variable {state : ClientState} {next : ℕ} {serviceEndpoint : Bool} {event : ClientEvent}

theorem not_service_of_client {slot : ℕ}
    (hclient : (reserveSlots next serviceEndpoint).Client slot) :
    ¬(reserveSlots next serviceEndpoint).Service slot := by
  rintro ⟨service, hservice, hslot⟩
  cases serviceEndpoint with
  | false => cases hservice
  | true =>
    obtain rfl := Option.some.inj hservice
    have hbelow : slot < next + domainClientReceiveSlotCount := hclient.2
    dsimp only at hslot
    omega

/-! ## The client -/

structure ClientHandle where
  endpoint : ℕ
  ownsCap : Bool
  deriving DecidableEq, Repr

/-- The capability space and the client library of a child.  `pending` are the
calls in progress, the innermost first: the allocator that a call uses is itself
a client and calls in between. -/
structure ClientState where
  cspace : ℕ → Option Capability
  receiveSlot : ℕ
  pending : List (Sel4Received × Option ℕ)
  handles : List ClientHandle

/-- The capability that a reply carries.  The kernel transfers one. -/
def carriedCapability (reply : Sel4Received) : Option Capability :=
  reply.caps.head?.join

variable (state)

/-- `seL4_Call` and the claim of what it transferred.  An occupied receive slot
takes no capability. -/
def exchange (reply : Sel4Received) : ClientState :=
  match carriedCapability reply, state.cspace state.receiveSlot with
  | some capability, none =>
    { state with
      cspace := Function.update state.cspace state.receiveSlot (some capability)
      receiveSlot := state.receiveSlot + 1
      pending := ({ reply with caps := [some capability] }, some state.receiveSlot)
        :: state.pending }
  | _, _ => { state with pending := ({ reply with caps := [] }, none) :: state.pending }

def discardReceivedCap (endpoint : Option ℕ) : ClientState :=
  match endpoint with
  | none => state
  | some slot => { state with cspace := Function.update state.cspace slot none }

/-- The rest of the innermost call: a reply that is not understood or cannot be
stored gives its capability back, any other becomes a handle. -/
def finish (memory : Bool) : ClientState :=
  match state.pending with
  | [] => state
  | (reply, returned) :: pending =>
    let ended := { state with pending := pending }
    match libfacetPlatformReply reply, memory, returned with
    | .ok _, true, none => ended
    | .ok _, true, some slot => { ended with handles := ⟨slot, true⟩ :: ended.handles }
    | _, _, _ => discardReceivedCap ended returned

def clientHandleClone (index : ℕ) : ClientState :=
  match state.handles[index]? with
  | none => state
  | some handle => { state with handles := { handle with ownsCap := false } :: state.handles }

def clientHandleRelease (index : ℕ) : ClientState :=
  match state.handles[index]? with
  | none => state
  | some handle =>
    let released := { state with handles := state.handles.eraseIdx index }
    if handle.ownsCap then discardReceivedCap released (some handle.endpoint) else released

/-- What a client does; a call is an exchange and, later, its end. -/
inductive ClientEvent
  | exchange (reply : Sel4Received)
  | finish (memory : Bool)
  | handleFrom (value : ℕ)
  | clone (handle : ℕ)
  | release (handle : ℕ)

def ClientEvent.step : ClientEvent → ClientState
  | .exchange reply => Transport.exchange state reply
  | .finish memory => Transport.finish state memory
  | .handleFrom value => { state with handles := ⟨value, false⟩ :: state.handles }
  | .clone handle => clientHandleClone state handle
  | .release handle => clientHandleRelease state handle

variable {state}

/-- The event brings a capability. -/
def ClientEvent.carries : ClientEvent → Bool
  | .exchange reply => (carriedCapability reply).isSome
  | _ => false

/-! ## Placement -/

/-- A capability that arrives now goes to a free slot of the client range, which is
none of the service's. -/
def ClientEvent.Placed (slots : DomainSlots) (state : ClientState) (event : ClientEvent) : Prop :=
  event.carries = true → slots.Client state.receiveSlot ∧ state.cspace state.receiveSlot = none
    ∧ ¬slots.Service state.receiveSlot

/-- Every capability of a run is placed so. -/
def PlacedRun (slots : DomainSlots) : ClientState → List ClientEvent → Prop
  | _, [] => True
  | state, event :: events => event.Placed slots state ∧ PlacedRun slots (event.step state) events

/-- A child as the loader starts it: whatever stands in the slots before the
reserved ones, and the service endpoint if there is one. -/
structure Started (slots : DomainSlots) (state : ClientState) : Prop where
  receiveSlot : state.receiveSlot = slots.receive
  pending : state.pending = []
  handles : state.handles = []
  free : ∀ slot, slots.receive ≤ slot →
    (∀ service, slots.service = some service → slot ≠ service.endpoint) → state.cspace slot = none

/-- From the receive slot on, the client range is free. -/
def Unused (slots : DomainSlots) (state : ClientState) : Prop :=
  ∀ slot, state.receiveSlot ≤ slot → slot < slots.receive + domainClientReceiveSlotCount →
    state.cspace slot = none

theorem Started.unused (hstarted : Started (reserveSlots next serviceEndpoint) state) :
    Unused (reserveSlots next serviceEndpoint) state := by
  intro slot hfrom hbelow
  apply hstarted.free slot (hstarted.receiveSlot ▸ hfrom)
  rintro service hservice rfl
  have hclient : (reserveSlots next serviceEndpoint).Client service.endpoint :=
    ⟨hstarted.receiveSlot ▸ hfrom, hbelow⟩
  exact not_service_of_client hclient ⟨service, hservice, .inr (.inl rfl)⟩

/-! ## Steps -/

theorem receiveSlot_discard (state : ClientState) (endpoint : Option ℕ) :
    (discardReceivedCap state endpoint).receiveSlot = state.receiveSlot := by
  cases endpoint <;> rfl

theorem cspace_discard (state : ClientState) (endpoint : Option ℕ) {slot : ℕ}
    (hfree : state.cspace slot = none) :
    (discardReceivedCap state endpoint).cspace slot = none := by
  cases endpoint with
  | none => exact hfree
  | some other =>
    by_cases hslot : slot = other
    · simp [discardReceivedCap, hslot]
    · simp [discardReceivedCap, Function.update_of_ne hslot, hfree]

/-- An event without a capability neither advances the receive slot nor fills
one. -/
theorem ClientEvent.step_of_not_carries (hcarries : event.carries = false) (state : ClientState) :
    (event.step state).receiveSlot = state.receiveSlot
      ∧ ∀ slot, state.cspace slot = none → (event.step state).cspace slot = none := by
  cases event with
  | exchange reply =>
    have hnone : carriedCapability reply = none := by
      simpa [ClientEvent.carries] using hcarries
    simp only [ClientEvent.step, Transport.exchange, hnone]
    exact ⟨trivial, fun _ hfree => hfree⟩
  | finish memory =>
    simp only [ClientEvent.step, Transport.finish]
    split
    · exact ⟨rfl, fun _ hfree => hfree⟩
    · split
      · exact ⟨rfl, fun _ hfree => hfree⟩
      · exact ⟨rfl, fun _ hfree => hfree⟩
      · exact ⟨receiveSlot_discard _ _, fun _ hfree => cspace_discard _ _ hfree⟩
  | handleFrom value => exact ⟨rfl, fun _ hfree => hfree⟩
  | clone handle =>
    simp only [ClientEvent.step, clientHandleClone]
    split
    · exact ⟨rfl, fun _ hfree => hfree⟩
    · exact ⟨rfl, fun _ hfree => hfree⟩
  | release handle =>
    simp only [ClientEvent.step, clientHandleRelease]
    split
    · exact ⟨rfl, fun _ hfree => hfree⟩
    · split
      · exact ⟨rfl, fun _ hfree => cspace_discard _ _ hfree⟩
      · exact ⟨rfl, fun _ hfree => hfree⟩

/-- A capability that finds its slot free takes it, and the receive slot advances. -/
theorem ClientEvent.step_of_carries (hcarries : event.carries = true)
    (hfree : state.cspace state.receiveSlot = none) :
    (event.step state).receiveSlot = state.receiveSlot + 1
      ∧ ∀ slot, slot ≠ state.receiveSlot →
        (event.step state).cspace slot = state.cspace slot := by
  cases event with
  | exchange reply =>
    obtain ⟨capability, hcapability⟩ := Option.isSome_iff_exists.mp hcarries
    simp only [ClientEvent.step, Transport.exchange, hcapability, hfree]
    exact ⟨trivial, fun slot hne => Function.update_of_ne hne _ _⟩
  | finish | handleFrom | clone | release => cases hcarries

theorem Unused.step {slots : DomainSlots} (hunused : Unused slots state)
    (hroom : event.carries = true →
      state.receiveSlot < slots.receive + domainClientReceiveSlotCount) :
    Unused slots (event.step state) := by
  intro slot hfrom hbelow
  cases hcarries : event.carries with
  | false =>
    obtain ⟨hslot, hkept⟩ := event.step_of_not_carries hcarries state
    exact hkept slot (hunused slot (hslot ▸ hfrom) hbelow)
  | true =>
    have hfree := hunused state.receiveSlot le_rfl (hroom hcarries)
    obtain ⟨hslot, hkept⟩ := event.step_of_carries hcarries hfree
    rw [hslot] at hfrom
    rw [hkept slot (by omega)]
    exact hunused slot (by omega) hbelow

/-! ## Runs -/

/-- While the capabilities fit into the rest of the range, each is placed in it. -/
theorem placedRun_of_room {events : List ClientEvent}
    (hunused : Unused (reserveSlots next serviceEndpoint) state) (hfrom : next ≤ state.receiveSlot)
    (hroom : state.receiveSlot + events.countP ClientEvent.carries
      ≤ next + domainClientReceiveSlotCount) :
    PlacedRun (reserveSlots next serviceEndpoint) state events := by
  induction events generalizing state with
  | nil => trivial
  | cons event events ih =>
    cases hcarries : event.carries with
    | false =>
      rw [List.countP_cons_of_neg (by simp [hcarries])] at hroom
      refine ⟨fun habsurd => by simp [hcarries] at habsurd, ih ?_ ?_ ?_⟩
      · exact hunused.step (fun habsurd => by simp [hcarries] at habsurd)
      · rwa [(event.step_of_not_carries hcarries state).1]
      · rwa [(event.step_of_not_carries hcarries state).1]
    | true =>
      rw [List.countP_cons_of_pos hcarries] at hroom
      have hbelow : state.receiveSlot < next + domainClientReceiveSlotCount := by omega
      have hfree : state.cspace state.receiveSlot = none :=
        hunused state.receiveSlot le_rfl hbelow
      have hclient : (reserveSlots next serviceEndpoint).Client state.receiveSlot :=
        ⟨hfrom, hbelow⟩
      refine ⟨fun _ => ⟨hclient, hfree, not_service_of_client hclient⟩, ih ?_ ?_ ?_⟩
      · exact hunused.step (fun _ => hbelow)
      · rw [(event.step_of_carries hcarries hfree).1]
        omega
      · rw [(event.step_of_carries hcarries hfree).1]
        omega

/-- Each capability that is placed uses up one slot of the range for good. -/
theorem room_of_placedRun {slots : DomainSlots} {events : List ClientEvent}
    (hplaced : PlacedRun slots state events) (hsome : 0 < events.countP ClientEvent.carries) :
    state.receiveSlot + events.countP ClientEvent.carries
      ≤ slots.receive + domainClientReceiveSlotCount := by
  induction events generalizing state with
  | nil => simp at hsome
  | cons event events ih =>
    cases hcarries : event.carries with
    | false =>
      rw [List.countP_cons_of_neg (by simp [hcarries])] at hsome ⊢
      have hrest := ih hplaced.2 hsome
      rwa [(event.step_of_not_carries hcarries state).1] at hrest
    | true =>
      obtain ⟨hclient, hfree, -⟩ := hplaced.1 hcarries
      have hbelow := hclient.2
      rw [List.countP_cons_of_pos hcarries]
      by_cases hmore : 0 < events.countP ClientEvent.carries
      · have hrest := ih hplaced.2 hmore
        rw [(event.step_of_carries hcarries hfree).1] at hrest
        omega
      · omega

/-- Every capability that a child receives is placed in a free slot of its client
range, away from the service's slots, exactly when the run brings no more
capabilities than the range has slots. -/
theorem client_slots_iff (next : ℕ) (serviceEndpoint : Bool) (state : ClientState)
    (hstarted : Started (reserveSlots next serviceEndpoint) state) (events : List ClientEvent) :
    PlacedRun (reserveSlots next serviceEndpoint) state events
      ↔ events.countP ClientEvent.carries ≤ domainClientReceiveSlotCount := by
  have hslot : state.receiveSlot = next := hstarted.receiveSlot
  constructor
  · intro hplaced
    by_cases hsome : 0 < events.countP ClientEvent.carries
    · have hroom := room_of_placedRun hplaced hsome
      have hreceive : (reserveSlots next serviceEndpoint).receive = next := rfl
      omega
    · omega
  · intro hcount
    exact placedRun_of_room hstarted.unused hslot.ge (by omega)

/-! ## One capability after the other -/

/-- A well-formed reply with one capability. -/
def capabilityReply : Sel4Received where
  length := 4
  registers := fun index => if index = 1 then rpcProtocolVersion.toUInt64 else 0
  caps := [some (.endpoint 1)]

/-- A child that serves, with its service endpoint in place. -/
def servingChild : ClientState where
  cspace := fun slot => if slot < 10 ∨ slot = 75 then some (.endpoint 0) else none
  receiveSlot := 10
  pending := []
  handles := []

theorem started_servingChild : Started (reserveSlots 10 true) servingChild where
  receiveSlot := rfl
  pending := rfl
  handles := rfl
  free := by
    intro slot hfrom hendpoint
    have hten : 10 ≤ slot := hfrom
    have hother : slot ≠ 75 := hendpoint _ rfl
    simp [servingChild, hten, hother]

theorem client_slots_iff_one_reply :
    PlacedRun (reserveSlots 10 true) servingChild [.exchange capabilityReply, .finish true] :=
  (client_slots_iff 10 true servingChild started_servingChild _).mpr (by decide)

/-- Calls that each bring a capability whose handle is released at once. -/
def releasedCalls (count : ℕ) : List ClientEvent :=
  (List.replicate count [.exchange capabilityReply, .finish true, .release 0]).flatten

/-- The 65th capability is due at the service receive slot, although every earlier
handle has been released. -/
theorem client_slots_run_out :
    ((releasedCalls 64).foldl ClientEvent.step servingChild).receiveSlot = 74
      ∧ (reserveSlots 10 true).service.map ServiceSlots.receive = some 74
      ∧ ((releasedCalls 64).foldl ClientEvent.step servingChild).handles = []
      ∧ ¬PlacedRun (reserveSlots 10 true) servingChild (releasedCalls 65) := by
  refine ⟨by decide +kernel, by decide, by decide +kernel, ?_⟩
  intro hplaced
  have hcount : (releasedCalls 65).countP ClientEvent.carries = 65 := by
    decide +kernel
  have hroom := room_of_placedRun hplaced (by omega)
  rw [hcount] at hroom
  exact absurd hroom (by decide)

end FacetOS.Transport
