import FacetOS.Core.Handles
import FacetOS.Transport.Call

/-!
# Ownership of handles across a call

An implementation that returns a handle gives up a handle of its own: the
transport is to pass it on and to release it.  The live handles of all parties
are kept in one table here, and both ways to call are followed with respect to
what they create and release.

A direct call clones every returned handle for the caller and leaves the
implementation's handle alone.  A server thread releases what it returned after
the reply has been sent, except when the reply could not be prepared.
-/

namespace FacetOS.Transport

open Rpc HandleTable

/-- `FacetSel4Handle`, as far as its lifetime is concerned. -/
structure Sel4Handle where
  endpoint : Capability
  ownsCap : Bool
  deriving DecidableEq, Repr

abbrev Handles := HandleTable Sel4Handle

/-- A message inside a process: attachments name handles, and `none` is null. -/
abbrev HandleMessage := FacetRpcMessage (Option ℕ)

/-- The handles that a message carries. -/
def transferred (message : HandleMessage) : List ℕ :=
  message.attachments.filterMap fun attachment =>
    if attachment.kind = .handle then attachment.handle else none

/-- The message with every handle replaced by the capability behind it. -/
def onWire (handles : Handles) (message : HandleMessage) : RpcMessage :=
  { message with
    attachments := message.attachments.map fun attachment =>
      { kind := attachment.kind
        handle := attachment.handle.bind fun id => (handles.entry id).map Sel4Handle.endpoint
        size := attachment.size } }

/-! ## Implementations -/

/-- What a dispatcher leaves behind. -/
structure DispatchOutcome where
  result : Int32
  reply : HandleMessage
  handles : Handles

/-- The handles of the reply are distinct, live, owned, and not those of the
request; nothing else is left behind or taken away. -/
structure Transfers (before : Handles) (borrowed : List ℕ) (outcome : DispatchOutcome) : Prop where
  next_le : before.next ≤ outcome.handles.next
  nodup : (transferred outcome.reply).Nodup
  owned : ∀ id ∈ transferred outcome.reply, ∃ handle,
    outcome.handles.entry id = some handle ∧ handle.ownsCap = true
  not_borrowed : ∀ id ∈ transferred outcome.reply, id ∉ borrowed
  other : ∀ id ∉ transferred outcome.reply, outcome.handles.entry id = before.entry id

/-- An implementation that returns handles which it owns for transfer.  It is run on
the live handles and those of the request. -/
structure Implementation where
  run : Handles → List ℕ → DispatchOutcome
  transfers : ∀ before borrowed, (∀ id ∈ borrowed, before.Live id) →
    Transfers before borrowed (run before borrowed)

/-! ## A direct call -/

variable (memory : ℕ → Bool)

/-- `libfacet_platform_handle_clone`; `memory` tells for each clone whether it can be
had. -/
def cloneEntry (index source : ℕ) (handles : Handles) : Option Sel4Handle :=
  match handles.entry source with
  | none => none
  | some native => if memory index then some { native with ownsCap := true } else none

/-- The handles that `local_call` delivers, or `none` when it fails, and the table it
leaves; `messages` tells whether there is memory for its two messages. -/
def localCallHandles (messages : Bool) (outcome : DispatchOutcome) : Option (List ℕ) × Handles :=
  if messages then acquireAll (cloneEntry memory) [] (transferred outcome.reply) outcome.handles
  else (none, outcome.handles)

/-! ## A call through the server thread -/

/-- `facet_sel4_handle_from_cap` for every received capability; one that cannot be
had is left out. -/
def attachRequest : ℕ → List FacetHandle → Handles → List ℕ × Handles
  | _, [], handles => ([], handles)
  | index, none :: caps, handles => attachRequest (index + 1) caps handles
  | index, some cap :: caps, handles =>
    if memory index then
      let rest := attachRequest (index + 1) caps (handles.create ⟨cap, false⟩)
      (handles.next :: rest.1, rest.2)
    else attachRequest (index + 1) caps handles

/-- Only handles that own their capability are released. -/
def releaseReplyHandles (handles : Handles) (ids : List ℕ) : Handles :=
  ids.foldl (fun handles id =>
    match handles.entry id with
    | none => handles
    | some handle => if handle.ownsCap then handles.release id else handles) handles

/-- The reply that is sent for an outcome, before it is prepared. -/
def wireReply (outcome : DispatchOutcome) : RpcMessage :=
  withResult outcome.result (onWire outcome.handles outcome.reply)

/-- The handles that the reply still holds after its preparation. -/
def preparedHandles (abi : Sel4Abi) (frame : Except FacetError Unit)
    (outcome : DispatchOutcome) : List ℕ :=
  match (bulkPrepare abi frame (wireReply outcome)).1 with
  | .ok () => transferred outcome.reply
  | .error _ => []

/-- The table after a server thread has sent the reply and cleaned up. -/
def serverCleanup (abi : Sel4Abi) (frame : Except FacetError Unit) (requestHandles : List ℕ)
    (outcome : DispatchOutcome) : Handles :=
  (releaseReplyHandles outcome.handles (preparedHandles abi frame outcome)).releaseAll
    requestHandles

/-- `stable_handle_from_received` -/
def stableEntry (index : ℕ) (cap : Capability) (_ : Handles) : Option Sel4Handle :=
  if memory index then some ⟨cap, true⟩ else none

/-- The capabilities that a received reply carries as handles. -/
def replyCapabilities (reply : RpcMessage) : List Capability :=
  reply.attachments.filterMap fun attachment =>
    if attachment.kind = .handle then attachment.handle else none

/-- The handles that `remote_call` makes of a received reply. -/
def receiveReply (abi : Sel4Abi) (memory : ℕ → Bool) (received : Sel4Received)
    (handles : Handles) : Option (List ℕ) × Handles :=
  match remoteCall abi received with
  | .error _ => (none, handles)
  | .ok reply => acquireAll (stableEntry memory) [] (replyCapabilities reply) handles

/-- A request as it was delivered, and which handles server thread and caller can
make. -/
structure ServerCall where
  abi : Sel4Abi
  channel : Channel
  received : Sel4Received
  attach : ℕ → Bool
  stable : ℕ → Bool

variable (call : ServerCall)

/-- The capabilities of the request that become handles.  With more frames announced
than capabilities received the difference wraps around, and all of them do. -/
def ServerCall.handleCaps : List FacetHandle :=
  let caps := call.received.caps.take sel4MaxAttachments
  let buffers := bufferCount (call.received.registers 2).toUInt32
  if buffers > caps.length then caps else caps.take (caps.length - buffers)

/-- The request handles and the table in which the dispatcher is run. -/
def ServerCall.attached (before : Handles) : List ℕ × Handles :=
  attachRequest call.attach 0 call.handleCaps before

variable (implementation : Implementation)

/-- What the dispatcher leaves, if the request reaches it. -/
def ServerCall.outcome (before : Handles) : Option DispatchOutcome :=
  match serverRequest call.abi call.received with
  | .error _ => none
  | .ok _ => some (implementation.run (call.attached before).2 (call.attached before).1)

/-- The message that the server thread sends, and the table it leaves. -/
def ServerCall.serve (before : Handles) : Sel4Message × Handles :=
  let requestHandles := (call.attached before).1
  match serverRequest call.abi call.received with
  | .error failure =>
    (replyToMessage call.abi (failureReply failure),
      (call.attached before).2.releaseAll requestHandles)
  | .ok _ =>
    let outcome := implementation.run (call.attached before).2 requestHandles
    (serverReply call.abi call.channel.frame outcome.result
        (onWire outcome.handles outcome.reply),
      serverCleanup call.abi call.channel.frame requestHandles outcome)

/-- The handles that the caller gets, or `none` when the call fails, and the final
table. -/
def ServerCall.run (before : Handles) : Option (List ℕ) × Handles :=
  let served := call.serve implementation before
  receiveReply call.abi call.stable (served.1.deliver call.channel.staleReply) served.2

/-! ## Balance -/

/-- The handles that were made between two tables. -/
def madeBetween (first last : Handles) : List ℕ :=
  List.range' first.next (last.next - first.next)

/-- Exactly the delivered handles are newly live, and every handle that was given up,
or made for the call without being delivered, was released once. -/
structure Balanced (before after : Handles) (givenUp made delivered : List ℕ) : Prop where
  live : ∀ id, after.Live id ↔ before.Live id ∧ id ∉ givenUp ∨ id ∈ delivered
  released : ∀ id, id ∈ givenUp ∨ id ∈ made ∧ id ∉ delivered → after.releases id = 1

/-! ### Direct calls -/

section Direct

variable {memory : ℕ → Bool} {messages : Bool} {before : Handles} {borrowed : List ℕ}
  {outcome : DispatchOutcome}

/-- A handle that was given up survives a direct call, because only new handles are
made and released. -/
theorem acquired_localCallHandles (memory : ℕ → Bool) (messages : Bool)
    (outcome : DispatchOutcome) :
    Acquired outcome.handles (localCallHandles memory messages outcome).2
      ((localCallHandles memory messages outcome).1.getD []) := by
  cases messages with
  | false => exact Acquired.refl _
  | true => exact acquired_acquireAll _ _ (Acquired.refl _) List.nodup_nil

theorem live_of_transfers (htransfers : Transfers before borrowed outcome) {id : ℕ}
    (hid : id ∈ transferred outcome.reply) : outcome.handles.Live id := by
  obtain ⟨handle, hentry, -⟩ := htransfers.owned id hid
  rw [Live, hentry]
  rfl

theorem localCall_balanced_iff (htransfers : Transfers before borrowed outcome) :
    Balanced before (localCallHandles memory messages outcome).2 (transferred outcome.reply)
        (madeBetween outcome.handles (localCallHandles memory messages outcome).2)
        ((localCallHandles memory messages outcome).1.getD [])
      ↔ transferred outcome.reply = [] := by
  have hacquired := acquired_localCallHandles memory messages outcome
  constructor
  · intro hbalanced
    rw [List.eq_nil_iff_forall_not_mem]
    intro id hid
    have hlive := live_of_transfers htransfers hid
    have hlt := lt_next_of_live hlive
    have hkept : (localCallHandles memory messages outcome).2.Live id := by
      rw [Live, hacquired.entry_old id hlt]
      exact hlive
    cases (hbalanced.live id).mp hkept with
    | inl hold => exact hold.2 hid
    | inr hdelivered =>
      have hnew := hacquired.handles_new id hdelivered
      omega
  · intro hnone
    have hrun : (localCallHandles memory messages outcome).2 = outcome.handles
        ∧ (localCallHandles memory messages outcome).1.getD [] = [] := by
      rw [localCallHandles, hnone]
      cases messages <;> exact ⟨rfl, rfl⟩
    rw [hrun.1, hrun.2, hnone]
    refine ⟨?_, ?_⟩
    · intro id
      have hsame := htransfers.other id (by simp [hnone])
      simp [Live, hsame]
    · intro id hid
      simp [madeBetween] at hid

end Direct

/-! ### Calls through the server thread -/

theorem acquired_attachRequest (memory : ℕ → Bool) {before handles : Handles} {done : List ℕ}
    (index : ℕ) (caps : List FacetHandle) (hacquired : Acquired before handles done) :
    Acquired before (attachRequest memory index caps handles).2
      (done ++ (attachRequest memory index caps handles).1) := by
  induction caps generalizing index handles done with
  | nil => simpa [attachRequest] using hacquired
  | cons cap caps ih =>
    cases cap with
    | none => exact ih (index + 1) hacquired
    | some cap =>
      unfold attachRequest
      split
      · have hrest := ih (index + 1) (hacquired.create ⟨cap, false⟩)
        simpa using hrest
      · exact ih (index + 1) hacquired

theorem nodup_attachRequest (memory : ℕ → Bool) (index : ℕ) (caps : List FacetHandle)
    (handles : Handles) : (attachRequest memory index caps handles).1.Nodup := by
  induction caps generalizing index handles with
  | nil => exact List.nodup_nil
  | cons cap caps ih =>
    cases cap with
    | none => exact ih (index + 1) handles
    | some cap =>
      unfold attachRequest
      split
      · refine List.nodup_cons.mpr ⟨?_, ih (index + 1) _⟩
        intro hmem
        have hrest := acquired_attachRequest memory (index + 1) caps
          (Acquired.refl (handles.create ⟨cap, false⟩))
        have hle := hrest.handles_new handles.next (by simpa using hmem)
        simp at hle
      · exact ih (index + 1) handles

/-- Owned handles are released one by one. -/
theorem releaseReplyHandles_eq_releaseAll {handles : Handles} {ids : List ℕ} (hnodup : ids.Nodup)
    (howned : ∀ id ∈ ids, ∃ handle, handles.entry id = some handle ∧ handle.ownsCap = true) :
    releaseReplyHandles handles ids = handles.releaseAll ids := by
  induction ids generalizing handles with
  | nil => rfl
  | cons first rest ih =>
    obtain ⟨hfirst, hrest⟩ := List.nodup_cons.mp hnodup
    obtain ⟨handle, hentry, howns⟩ := howned first List.mem_cons_self
    have hstep : releaseReplyHandles handles (first :: rest)
        = releaseReplyHandles (handles.release first) rest := by
      simp [releaseReplyHandles, hentry, howns]
    rw [hstep]
    apply ih hrest
    intro id hid
    have hne : id ≠ first := fun heq => hfirst (heq ▸ hid)
    obtain ⟨other, hother, hothers⟩ := howned id (List.mem_cons_of_mem _ hid)
    exact ⟨other, (entry_release_of_ne handles hne).trans hother, hothers⟩

/-- A message with attachments leaves no room for a shared frame. -/
theorem bulkPrepare_ok_iff (abi : Sel4Abi) (frame : Except FacetError Unit) {message : RpcMessage}
    (hattachments : 0 < message.attachments.length) :
    (bulkPrepare abi frame message).1 = .ok ()
      ↔ message.HasPayload ∧ message.payloadSize ≤ rpcMaxInlinePayload := by
  unfold bulkPrepare
  by_cases hpayload : message.HasPayload
  · rw [if_neg (not_not.mpr hpayload)]
    by_cases hsmall : message.payloadSize ≤ rpcMaxInlinePayload
    · rw [if_pos hsmall]
      exact ⟨fun _ => ⟨hpayload, hsmall⟩, fun _ => rfl⟩
    rw [if_neg hsmall, if_pos]
    · exact ⟨fun hok => absurd hok (by simp), fun hboth => absurd hboth.2 hsmall⟩
    split
    · exact .inl rfl
    right
    right
    have hpositive : 0 < sel4PageSize abi := Nat.two_pow_pos _
    have hpages : 1 ≤ (message.payloadSize + sel4PageSize abi - 1) / sel4PageSize abi := by
      rw [Nat.le_div_iff_mul_le hpositive]
      simp only [rpcMaxInlinePayload] at hsmall
      omega
    simp only [sel4MaxAttachments]
    omega
  · rw [if_pos hpayload]
    exact ⟨fun hok => absurd hok (by simp), fun hboth => absurd hboth.1 hpayload⟩

/-- The payload of the reply travels inline. -/
def InlineReply (outcome : DispatchOutcome) : Prop :=
  outcome.reply.HasPayload ∧ outcome.reply.payloadSize ≤ rpcMaxInlinePayload

instance (outcome : DispatchOutcome) : Decidable (InlineReply outcome) :=
  inferInstanceAs (Decidable (_ ∧ _))

/-- Handles stay with a reply exactly when its payload travels inline. -/
theorem preparedHandles_eq (abi : Sel4Abi) (frame : Except FacetError Unit)
    (outcome : DispatchOutcome) :
    preparedHandles abi frame outcome
      = if InlineReply outcome then transferred outcome.reply else [] := by
  by_cases hnone : outcome.reply.attachments = []
  · have hhandles : transferred outcome.reply = [] := by simp [transferred, hnone]
    rw [preparedHandles, hhandles, ite_self]
    split <;> rfl
  · have hattachments : 0 < (wireReply outcome).attachments.length := by
      have hlength : (wireReply outcome).attachments.length
          = outcome.reply.attachments.length := by
        unfold wireReply withResult
        split <;> simp [onWire]
      rw [hlength]
      exact List.length_pos_iff.mpr hnone
    have hinline : InlineReply outcome ↔ (wireReply outcome).HasPayload
        ∧ (wireReply outcome).payloadSize ≤ rpcMaxInlinePayload := by
      unfold wireReply withResult
      split <;> exact Iff.rfl
    have hprepare := (bulkPrepare_ok_iff abi frame hattachments).trans hinline.symm
    unfold preparedHandles
    split
    · rename_i hok
      rw [if_pos (hprepare.mp hok)]
    · rename_i failure herror
      rw [if_neg]
      intro hreply
      rw [hprepare.mpr hreply] at herror
      contradiction

section Server

variable {abi : Sel4Abi} {frame : Except FacetError Unit} {before attached after : Handles}
  {requestHandles delivered : List ℕ} {outcome : DispatchOutcome}

theorem preparedHandles_sublist :
    (preparedHandles abi frame outcome).Sublist (transferred outcome.reply) := by
  rw [preparedHandles_eq]
  split
  · exact List.Sublist.refl _
  · exact List.nil_sublist _

theorem serverCleanup_eq (htransfers : Transfers attached requestHandles outcome) :
    serverCleanup abi frame requestHandles outcome
      = (outcome.handles.releaseAll (preparedHandles abi frame outcome)).releaseAll
        requestHandles := by
  rw [serverCleanup, releaseReplyHandles_eq_releaseAll
    (preparedHandles_sublist.nodup htransfers.nodup)
    fun id hid => htransfers.owned id (preparedHandles_sublist.subset hid)]

/-- Of the handles that a server thread finds after the dispatcher, those of the
request and of the prepared reply are gone after the cleanup. -/
theorem live_serverCleanup_iff (htransfers : Transfers attached requestHandles outcome) (id : ℕ) :
    (serverCleanup abi frame requestHandles outcome).Live id
      ↔ id ∉ requestHandles ∧ id ∉ preparedHandles abi frame outcome
        ∧ outcome.handles.Live id := by
  rw [serverCleanup_eq htransfers, Live, Live]
  by_cases hrequest : id ∈ requestHandles
  · simp [entry_releaseAll_of_mem _ hrequest, hrequest]
  · rw [entry_releaseAll_of_not_mem _ hrequest]
    by_cases hreply : id ∈ preparedHandles abi frame outcome
    · simp [entry_releaseAll_of_mem _ hreply, hreply]
    · simp [entry_releaseAll_of_not_mem _ hreply, hrequest, hreply]

variable (hattached : Acquired before attached requestHandles)
include hattached

/-- The handles of the request, and those of the reply that are still with it, are
each released once in the cleanup. -/
theorem releases_serverCleanup
    (hnodup : requestHandles.Nodup) (htransfers : Transfers attached requestHandles outcome)
    {id : ℕ} (hid : id ∈ requestHandles ∨ id ∈ preparedHandles abi frame outcome) :
    (serverCleanup abi frame requestHandles outcome).releases id = 1 := by
  have hprepared : (preparedHandles abi frame outcome).Sublist (transferred outcome.reply) :=
    preparedHandles_sublist
  have hdisjoint : ∀ id ∈ requestHandles, id ∉ transferred outcome.reply :=
    fun id hrequest hreply => htransfers.not_borrowed id hreply hrequest
  rw [serverCleanup_eq htransfers]
  by_cases hrequest : id ∈ requestHandles
  · apply releases_releaseAll_of_mem hnodup _ hrequest
    intro other hother
    have hkept : other ∉ preparedHandles abi frame outcome :=
      fun hreply => hdisjoint other hother (hprepared.subset hreply)
    rw [Live, entry_releaseAll_of_not_mem _ hkept,
      htransfers.other other (hdisjoint other hother)]
    exact (hattached.live_new other (hattached.handles_new other hother)).mpr hother
  · rw [releases_releaseAll_of_not_mem _ hrequest]
    apply releases_releaseAll_of_mem (hprepared.nodup htransfers.nodup) _
      (hid.resolve_left hrequest)
    intro other hother
    exact live_of_transfers htransfers (hprepared.subset hother)

/-- Outside the request and the reply a dispatcher leaves alive what was alive before
the call. -/
theorem live_outcome_iff (htransfers : Transfers attached requestHandles outcome) {id : ℕ}
    (hrequest : id ∉ requestHandles) (hreply : id ∉ transferred outcome.reply) :
    outcome.handles.Live id ↔ before.Live id := by
  rw [Live, htransfers.other id hreply]
  by_cases hold : id < before.next
  · rw [hattached.entry_old id hold]
    rfl
  · have hnew := hattached.live_new id (not_lt.mp hold)
    have hdead : ¬ before.Live id := fun hlive => hold (lt_next_of_live hlive)
    simp only [hdead, iff_false]
    exact fun hlive => hrequest (hnew.mp hlive)

/-- A call that reached the dispatcher is balanced exactly when it returned no
handle or an inline payload. -/
theorem served_balanced_iff
    (hnodup : requestHandles.Nodup) (htransfers : Transfers attached requestHandles outcome)
    (hreceived : Acquired (serverCleanup abi frame requestHandles outcome) after
      delivered) :
    Balanced before after (transferred outcome.reply)
        (requestHandles ++ madeBetween (serverCleanup abi frame requestHandles outcome) after)
        delivered
      ↔ transferred outcome.reply = [] ∨ InlineReply outcome := by
  set cleaned := serverCleanup abi frame requestHandles outcome with hcleaned
  have hnext : before.next ≤ cleaned.next := by
    rw [hcleaned, serverCleanup_eq htransfers, next_releaseAll,
      next_releaseAll]
    exact hattached.next_le.trans htransfers.next_le
  have hold : ∀ id, cleaned.Live id → after.Live id := by
    intro id hlive
    rw [Live, hreceived.entry_old id (lt_next_of_live hlive)]
    exact hlive
  constructor
  · intro hbalanced
    by_contra hlost
    obtain ⟨hsome, hinline⟩ := not_or.mp hlost
    obtain ⟨id, hid⟩ := List.exists_mem_of_ne_nil _ hsome
    have hlive : cleaned.Live id := by
      rw [live_serverCleanup_iff htransfers, preparedHandles_eq, if_neg hinline]
      exact ⟨htransfers.not_borrowed id hid, List.not_mem_nil,
        live_of_transfers htransfers hid⟩
    cases (hbalanced.live id).mp (hold id hlive) with
    | inl hkept => exact hkept.2 hid
    | inr hdelivered =>
      have hle := hreceived.handles_new id hdelivered
      have hlt := lt_next_of_live hlive
      omega
  · intro hsettled
    have hprepared : preparedHandles abi frame outcome = transferred outcome.reply := by
      rw [preparedHandles_eq]
      cases hsettled with
      | inl hnone => rw [hnone, ite_self]
      | inr hinline => rw [if_pos hinline]
    refine ⟨?_, ?_⟩
    · intro id
      by_cases hid : id < cleaned.next
      · have hdelivered : id ∉ delivered := by
          intro hmem
          have hle := hreceived.handles_new id hmem
          omega
        rw [Live, hreceived.entry_old id hid]
        change cleaned.Live id ↔ _
        rw [live_serverCleanup_iff htransfers, hprepared]
        constructor
        · rintro ⟨hrequest, hreply, hlive⟩
          exact .inl ⟨(live_outcome_iff hattached htransfers hrequest hreply).mp hlive, hreply⟩
        rintro (⟨hlive, hreply⟩ | hmem)
        · have hrequest : id ∉ requestHandles := by
            intro hmem
            have hle := hattached.handles_new id hmem
            have hlt := lt_next_of_live hlive
            omega
          exact ⟨hrequest, hreply, (live_outcome_iff hattached htransfers hrequest hreply).mpr
            hlive⟩
        · exact absurd hmem hdelivered
      · rw [hreceived.live_new id (not_lt.mp hid)]
        constructor
        · exact .inr
        · rintro (⟨hlive, -⟩ | hmem)
          · have hlt := lt_next_of_live hlive
            omega
          · exact hmem
    · intro id hid
      have hreleased : id ∈ requestHandles ∨ id ∈ preparedHandles abi frame outcome →
          after.releases id = 1 := by
        intro hmem
        have honce : cleaned.releases id = 1 :=
          releases_serverCleanup hattached hnodup htransfers hmem
        have hlt : id < cleaned.next := by
          apply released_lt
          apply List.count_pos_iff.mp
          rw [releases] at honce
          omega
        rw [hreceived.releases_old id hlt]
        exact honce
      rcases hid with hreply | ⟨hmade, hundelivered⟩
      · exact hreleased (.inr (hprepared ▸ hreply))
      · rw [List.mem_append] at hmade
        cases hmade with
        | inl hrequest => exact hreleased (.inl hrequest)
        | inr hnew =>
          rw [madeBetween, List.mem_range'_1] at hnew
          exact hreceived.released_new id hnew.1 (by omega) hundelivered

end Server

/-- The cleanup after a request that never reached the dispatcher is that after a
dispatcher which did nothing. -/
def idleOutcome (handles : Handles) : DispatchOutcome where
  result := 0
  reply :=
    { protocolVersion := rpcProtocolVersion
      methodId := 0
      flags := 0
      words := []
      payload := none
      payloadSize := 0
      attachments := []
      payload_readable := readable_none }
  handles := handles

theorem serverCleanup_idleOutcome (abi : Sel4Abi) (frame : Except FacetError Unit)
    (handles : Handles) (requestHandles : List ℕ) :
    serverCleanup abi frame requestHandles (idleOutcome handles)
      = handles.releaseAll requestHandles := rfl

theorem transfers_idleOutcome (handles : Handles) (borrowed : List ℕ) :
    Transfers handles borrowed (idleOutcome handles) :=
  ⟨le_rfl, List.nodup_nil, List.forall_mem_nil _, List.forall_mem_nil _, fun _ _ => rfl⟩

/-- What `local_call` has to deliver; without memory nothing is dispatched. -/
def localOutcome (implementation : Implementation) (messages : Bool) (before : Handles)
    (borrowed : List ℕ) : DispatchOutcome :=
  if messages then implementation.run before borrowed else idleOutcome before

theorem transfers_localOutcome (implementation : Implementation) (messages : Bool)
    {before : Handles} {borrowed : List ℕ} (hborrowed : ∀ id ∈ borrowed, before.Live id) :
    Transfers before borrowed (localOutcome implementation messages before borrowed) := by
  cases messages with
  | false => exact transfers_idleOutcome before borrowed
  | true => exact implementation.transfers before borrowed hborrowed

theorem acquired_receiveReply (abi : Sel4Abi) (memory : ℕ → Bool) (received : Sel4Received)
    (handles : Handles) :
    Acquired handles (receiveReply abi memory received handles).2
      ((receiveReply abi memory received handles).1.getD []) := by
  unfold receiveReply
  split
  · exact Acquired.refl handles
  · exact acquired_acquireAll _ _ (Acquired.refl _) List.nodup_nil

/-- The handles that the implementation gives up in a call through the server
thread. -/
def ServerCall.givenUp (call : ServerCall) (implementation : Implementation)
    (before : Handles) : List ℕ :=
  match call.outcome implementation before with
  | none => []
  | some outcome => transferred outcome.reply

/-- The handles that server thread and caller make for the call. -/
def ServerCall.made (call : ServerCall) (implementation : Implementation)
    (before : Handles) : List ℕ :=
  (call.attached before).1
    ++ madeBetween (call.serve implementation before).2 (call.run implementation before).2

/-- Handles are balanced in a direct call exactly when none is returned, and in a
call through the server thread exactly when none is returned or the payload of the
reply travels inline; a request that does not reach the dispatcher leaves none
behind. -/
theorem handles_balanced_iff (implementation : Implementation) (before : Handles) :
    (∀ (memory : ℕ → Bool) (messages : Bool) (borrowed : List ℕ),
      (∀ id ∈ borrowed, before.Live id) →
      let outcome := localOutcome implementation messages before borrowed
      let called := localCallHandles memory messages outcome
      (Balanced before called.2 (transferred outcome.reply)
          (madeBetween outcome.handles called.2) (called.1.getD [])
        ↔ transferred outcome.reply = []))
    ∧ ∀ call : ServerCall,
      (Balanced before (call.run implementation before).2 (call.givenUp implementation before)
          (call.made implementation before) ((call.run implementation before).1.getD [])
        ↔ ∀ outcome, call.outcome implementation before = some outcome →
          transferred outcome.reply = [] ∨ InlineReply outcome) := by
  refine ⟨fun memory messages borrowed hborrowed =>
    localCall_balanced_iff (transfers_localOutcome implementation messages hborrowed),
    fun call => ?_⟩
  have hattached : Acquired before (call.attached before).2 (call.attached before).1 :=
    acquired_attachRequest call.attach 0 call.handleCaps (Acquired.refl before)
  have hnodup : (call.attached before).1.Nodup :=
    nodup_attachRequest call.attach 0 call.handleCaps before
  have hborrowed : ∀ id ∈ (call.attached before).1, (call.attached before).2.Live id :=
    fun id hid => (hattached.live_new id (hattached.handles_new id hid)).mpr hid
  have hreceived := acquired_receiveReply call.abi call.stable
    ((call.serve implementation before).1.deliver call.channel.staleReply)
    (call.serve implementation before).2
  change Acquired (call.serve implementation before).2
    (call.run implementation before).2 ((call.run implementation before).1.getD []) at hreceived
  unfold ServerCall.givenUp ServerCall.made
  generalize call.run implementation before = final at hreceived ⊢
  unfold ServerCall.serve at hreceived ⊢
  unfold ServerCall.outcome
  cases hrequest : serverRequest call.abi call.received with
  | error failure =>
    rw [hrequest] at hreceived
    dsimp only at hreceived ⊢
    rw [← serverCleanup_idleOutcome call.abi call.channel.frame] at hreceived ⊢
    refine (served_balanced_iff hattached hnodup (transfers_idleOutcome _ _) hreceived).trans ?_
    exact ⟨fun _ outcome hnone => absurd hnone (by simp), fun _ => .inl rfl⟩
  | ok request =>
    rw [hrequest] at hreceived
    refine (served_balanced_iff hattached hnodup (implementation.transfers _ _ hborrowed)
      hreceived).trans ?_
    simp

/-! ## An implementation that opens something -/

/-- A reply with the result `FACET_OK`, one handle and `bytes` zero payload bytes. -/
def openedReply (id bytes : ℕ) : HandleMessage where
  protocolVersion := rpcProtocolVersion
  methodId := 0
  flags := 0
  words := [0]
  payload := some (List.replicate bytes 0)
  payloadSize := bytes
  attachments := [⟨.handle, some id, 0⟩]
  payload_readable := readable_replicate bytes

/-- An implementation that returns a clone of one of its handles, as `wrap_node` does,
with `bytes` bytes of payload. -/
def opening (bytes : ℕ) : Implementation where
  run before _ := ⟨0, openedReply before.next bytes, before.create ⟨.endpoint 5, true⟩⟩
  transfers := by
    intro before borrowed hborrowed
    have hhandles : transferred (openedReply before.next bytes) = [before.next] := rfl
    refine ⟨Nat.le_succ _, ?_, ?_, ?_, ?_⟩
    · rw [hhandles]
      exact List.nodup_singleton _
    · rw [hhandles, List.forall_mem_singleton]
      exact ⟨_, entry_create_self _ _, rfl⟩
    · rw [hhandles, List.forall_mem_singleton]
      intro hmem
      exact lt_irrefl _ (lt_next_of_live (hborrowed _ hmem))
    · intro id hid
      rw [hhandles, List.mem_singleton] at hid
      exact entry_create_of_ne _ _ hid

/-- The outcome of opening something when no handle exists yet. -/
def openedOutcome : DispatchOutcome := (opening 16).run HandleTable.empty []

theorem handles_balanced_iff_opening :
    (∀ call : ServerCall,
      Balanced HandleTable.empty (call.run (opening 16) HandleTable.empty).2
        (call.givenUp (opening 16) HandleTable.empty) (call.made (opening 16) HandleTable.empty)
        ((call.run (opening 16) HandleTable.empty).1.getD []))
    ∧ ∀ memory : ℕ → Bool,
      ¬ Balanced HandleTable.empty (localCallHandles memory true openedOutcome).2
        (transferred openedOutcome.reply)
        (madeBetween openedOutcome.handles (localCallHandles memory true openedOutcome).2)
        ((localCallHandles memory true openedOutcome).1.getD []) := by
  obtain ⟨hlocal, hserver⟩ := handles_balanced_iff (opening 16) HandleTable.empty
  refine ⟨?_, ?_⟩
  · intro call
    refine (hserver call).mpr ?_
    intro outcome houtcome
    unfold ServerCall.outcome at houtcome
    split at houtcome
    · contradiction
    · obtain rfl := Option.some.inj houtcome
      exact .inr ⟨fun hnull => Option.some_ne_none _ hnull.2, Nat.le_of_ble_eq_true rfl⟩
  · intro memory hbalanced
    have hnone := (hlocal memory true [] (List.forall_mem_nil _)).mp hbalanced
    exact absurd hnone (List.cons_ne_nil _ _)

/-- A direct call leaves the handle 0 of the implementation alive beside the handle 1
that the caller gets. -/
theorem opened_handle_leaks :
    (localCallHandles (fun _ => true) true openedOutcome).1 = some [1]
      ∧ (localCallHandles (fun _ => true) true openedOutcome).2.Live 0
      ∧ ¬ Balanced HandleTable.empty (localCallHandles (fun _ => true) true openedOutcome).2
        (transferred openedOutcome.reply)
        (madeBetween openedOutcome.handles (localCallHandles (fun _ => true) true openedOutcome).2)
        ((localCallHandles (fun _ => true) true openedOutcome).1.getD []) := by
  refine ⟨by decide, by decide, ?_⟩
  intro hbalanced
  have hlive := (hbalanced.live 0).mp (by decide)
  revert hlive
  decide

end FacetOS.Transport
