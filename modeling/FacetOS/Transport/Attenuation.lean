import FacetOS.Transport.Call

/-!
# Handles bound to one method

`libfacet_get_method_handle` makes a handle that is meant to reach one method of
an object only.  The method is a number stored in the handle; it survives cloning
and replaces the method of every request, in a direct call as in a call by
message.  Zero stands for no restriction.
-/

namespace FacetOS.Transport

open Registers Rpc

/-! ## Exported objects -/

/-- A method of an interface; a server may leave it out. -/
structure FacetMethodMeta where
  methodId : UInt32
  serverMethod : Option Dispatch

/-- What an exported object offers. -/
abbrev FacetInterfaceMeta := List FacetMethodMeta

def findMethod (metadata : FacetInterfaceMeta) (methodId : UInt32) : Option FacetMethodMeta :=
  metadata.find? (fun method => method.methodId == methodId)

/-- The method that a request runs, with its number. -/
def servedMethod (metadata : FacetInterfaceMeta) (view : RequestView) :
    Option (UInt32 × Dispatch) := do
  let method ← findMethod metadata view.methodId
  let run ← method.serverMethod
  return (method.methodId, run)

def commonDispatch (metadata : FacetInterfaceMeta) : Dispatch := fun view =>
  match servedMethod metadata view with
  | none => (FacetError.noSuchMethod.code, { failureReply .noSuchMethod with words := [] })
  | some (_, run) => run view

variable {abi : Sel4Abi} {view : RequestView} {handle : BoundHandle} {request : RpcMessage}

theorem servedMethod_methodId {metadata : FacetInterfaceMeta} {served : UInt32 × Dispatch}
    (hserved : servedMethod metadata view = some served) :
    served.1 = view.methodId := by
  simp only [servedMethod, Option.bind_eq_bind, Option.bind_eq_some_iff, Option.pure_def,
    Option.some.injEq] at hserved
  obtain ⟨method, hmethod, run, -, rfl⟩ := hserved
  simpa using List.find?_some hmethod

/-! ## Handles -/

/-- `FacetSel4Handle`, as a call reads it.  The endpoint designates an exported
object; `exported` tells whether the handle also has the object's export state. -/
structure BoundHandle where
  endpoint : ℕ
  methodId : UInt32
  exported : Bool
  deriving DecidableEq, Repr

/-- `libfacet_platform_handle_clone`: the copied capability designates the same
object. -/
def libfacetPlatformHandleClone (source : BoundHandle) : BoundHandle where
  endpoint := source.endpoint
  methodId := source.methodId
  exported := source.exported

def libfacetPlatformMethodHandle (object : BoundHandle) (methodId : UInt32) : BoundHandle :=
  { libfacetPlatformHandleClone object with methodId := methodId }

/-- The handles that come from one request for a method, cloned any number of
times. -/
inductive MethodHandle (methodId : UInt32) : BoundHandle → Prop
  | bound (object : BoundHandle) :
      MethodHandle methodId (libfacetPlatformMethodHandle object methodId)
  | cloned {handle : BoundHandle} :
      MethodHandle methodId handle → MethodHandle methodId (libfacetPlatformHandleClone handle)

theorem MethodHandle.methodId_eq {methodId : UInt32} (hhandle : MethodHandle methodId handle) :
    handle.methodId = methodId := by
  induction hhandle with
  | bound object => rfl
  | cloned hsource ih => exact ih

/-! ## Calls through a handle -/

/-- `libfacet_platform_call` of the process that owns the platform. -/
def callThrough (abi : Sel4Abi) (channel : Channel) (handle : BoundHandle) (dispatch : Dispatch)
    (request : RpcMessage) : Except FacetError RpcMessage :=
  if handle.exported then localCall ⟨handle.methodId, dispatch⟩ request
  else remoteInvoke abi channel ⟨handle.methodId, dispatch⟩ request

/-- The request that a call by message hands to the object's dispatcher, unless it
is refused before. -/
def arrivingRequest (abi : Sel4Abi) (channel : Channel) (actual : RpcMessage) :
    Option RequestView :=
  match bulkPrepare abi channel.frame actual with
  | (.error _, _) => none
  | (.ok (), prepared) =>
    match messageFromRequest abi prepared with
    | .error _ => none
    | .ok message =>
      match serverRequest abi (message.deliver channel.staleRequest) with
      | .error _ => none
      | .ok received => some (requestView received)

def dispatchedRequest (abi : Sel4Abi) (channel : Channel) (handle : BoundHandle)
    (request : RpcMessage) : Option RequestView :=
  if handle.exported then some (requestView (actualRequest handle.methodId request))
  else arrivingRequest abi channel (actualRequest handle.methodId request)

/-- A call runs the dispatcher on nothing but that request: where it is refused the
object has no part in the answer, and otherwise the answer is made from the one
outcome. -/
theorem callThrough_factors (abi : Sel4Abi) (channel : Channel) (handle : BoundHandle)
    (request : RpcMessage) :
    ∃ (refused : Except FacetError RpcMessage)
      (finish : Int32 × RpcMessage → Except FacetError RpcMessage), ∀ dispatch,
      callThrough abi channel handle dispatch request
        = match dispatchedRequest abi channel handle request with
          | none => refused
          | some view => finish (dispatch view) := by
  unfold callThrough dispatchedRequest
  by_cases hlocal : handle.exported = true
  · exact ⟨.error .error, fun outcome => .ok (withResult outcome.1 outcome.2),
      by simp [hlocal, localCall]⟩
  simp only [hlocal, if_false, remoteInvoke, arrivingRequest, Bool.false_eq_true]
  rcases hprepare : bulkPrepare abi channel.frame (actualRequest handle.methodId request) with
    ⟨_ | accepted, prepared⟩
  · exact ⟨_, fun _ => .error .error, fun _ => rfl⟩
  dsimp only
  cases hmessage : messageFromRequest abi prepared with
  | error failure => exact ⟨_, fun _ => .error .error, fun _ => rfl⟩
  | ok message =>
    dsimp only [facetSel4ServerEntry]
    cases serverRequest abi (message.deliver channel.staleRequest) with
    | error failure =>
      exact ⟨remoteCall abi ((replyToMessage abi (failureReply failure)).deliver
        channel.staleReply), fun _ => .error .error, fun _ => rfl⟩
    | ok received =>
      exact ⟨.error .error, fun outcome => remoteCall abi
        ((serverReply abi channel.frame outcome.1 outcome.2).deliver channel.staleReply),
        fun _ => rfl⟩

/-- The method of the object that a call runs, if it is not refused. -/
def dispatchedMethod (abi : Sel4Abi) (channel : Channel) (handle : BoundHandle)
    (metadata : FacetInterfaceMeta) (request : RpcMessage) : Option UInt32 :=
  (dispatchedRequest abi channel handle request).bind (fun view =>
    (servedMethod metadata view).map Prod.fst)

/-! ## The method of a request on its way -/

theorem bulkPrepare_methodId (abi : Sel4Abi) (frame : Except FacetError Unit)
    (message : RpcMessage) : (bulkPrepare abi frame message).2.methodId = message.methodId := by
  simp only [bulkPrepare]
  cases frame with
  | error failure => split_ifs <;> rfl
  | ok accepted => split_ifs <;> rfl

theorem requestFromMessage_methodId {received : Sel4Received}
    (hok : requestFromMessage abi received = .ok request) :
    request.methodId = (received.registers 0).toUInt32 := by
  simp only [requestFromMessage] at hok
  split_ifs at hok
  all_goals
    cases hok
    rfl

theorem serverRequest_methodId {received : Sel4Received}
    (hok : serverRequest abi received = .ok request) :
    request.methodId = (received.registers 0).toUInt32 := by
  unfold serverRequest at hok
  dsimp only at hok
  split at hok
  · cases hok
  cases hread : requestFromMessage abi received with
  | error failure =>
    rw [hread] at hok
    cases hok
  | ok unattached =>
    rw [hread] at hok
    dsimp only at hok
    rw [← requestFromMessage_methodId hread]
    split at hok
    · exact (bulkReadReceived_eq_ok hok).methodId
    · cases hok
      rfl

/-- A request arrives with the method it was sent with. -/
theorem arrivingRequest_methodId {channel : Channel} {actual : RpcMessage}
    (harrives : arrivingRequest abi channel actual = some view) :
    view.methodId = actual.methodId := by
  unfold arrivingRequest at harrives
  rcases hprepare : bulkPrepare abi channel.frame actual with ⟨_ | accepted, prepared⟩
  · rw [hprepare] at harrives
    cases harrives
  rw [hprepare] at harrives
  dsimp only at harrives
  cases hmessage : messageFromRequest abi prepared with
  | error failure =>
    rw [hmessage] at harrives
    cases harrives
  | ok message =>
    rw [hmessage] at harrives
    dsimp only at harrives
    cases hserved : serverRequest abi (message.deliver channel.staleRequest) with
    | error failure =>
      rw [hserved] at harrives
      cases harrives
    | ok received =>
      rw [hserved] at harrives
      cases harrives
      have hregister : ((message.deliver channel.staleRequest).registers 0).toUInt32
          = prepared.methodId := by
        have hcontrol := (messageFromRequest_frames hmessage).1.control_read
          channel.staleRequest 0 _ rfl
        change (applyWrites message.writes channel.staleRequest 0).toUInt32 = _
        rw [hcontrol, UInt32.toUInt32_toUInt64]
      calc
        received.methodId
            = ((message.deliver channel.staleRequest).registers 0).toUInt32 :=
          serverRequest_methodId hserved
        _ = prepared.methodId := hregister
        _ = actual.methodId := by
          have hkept := bulkPrepare_methodId abi channel.frame actual
          rw [hprepare] at hkept
          exact hkept

theorem actualRequest_methodId {methodId : UInt32} (hrestricts : methodId ≠ 0)
    (request : RpcMessage) : (actualRequest methodId request).methodId = methodId := by
  rw [actualRequest, if_pos hrestricts]

/-! ## Attenuation -/

/-- Every call through the handle runs the given method or is refused. -/
def Attenuates (methodId : UInt32) (handle : BoundHandle) : Prop :=
  ∀ abi channel metadata request,
    dispatchedMethod abi channel handle metadata request = none
      ∨ dispatchedMethod abi channel handle metadata request = some methodId

theorem dispatchedRequest_methodId {channel : Channel} (hrestricts : handle.methodId ≠ 0)
    (hview : dispatchedRequest abi channel handle request = some view) :
    view.methodId = handle.methodId := by
  unfold dispatchedRequest at hview
  split at hview
  · cases hview
    exact actualRequest_methodId hrestricts request
  · rw [arrivingRequest_methodId hview, actualRequest_methodId hrestricts]

theorem attenuates_of_ne_zero (hrestricts : handle.methodId ≠ 0) :
    Attenuates handle.methodId handle := by
  intro abi channel metadata request
  unfold dispatchedMethod
  cases hview : dispatchedRequest abi channel handle request with
  | none => exact .inl rfl
  | some view =>
    rw [Option.bind_some]
    cases hserved : servedMethod metadata view with
    | none => exact .inl rfl
    | some served =>
      right
      rw [Option.map_some, servedMethod_methodId hserved,
        dispatchedRequest_methodId hrestricts hview]

/-- An object with one more method besides the generic one. -/
def twoMethods : FacetInterfaceMeta :=
  [⟨0, some (fun _ => (0, failureReply .noSuchMethod))⟩,
    ⟨100, some (fun _ => (0, failureReply .noSuchMethod))⟩]

def hundredRequest : RpcMessage := { sampleRequest with methodId := 100 }

/-- A handle for the generic method reaches the other one, directly and by
message. -/
theorem zero_method_handle_unrestricted :
    MethodHandle 0 (libfacetPlatformMethodHandle ⟨0, 0, true⟩ 0)
      ∧ dispatchedMethod x86Abi quietChannel (libfacetPlatformMethodHandle ⟨0, 0, true⟩ 0)
          twoMethods hundredRequest = some 100
      ∧ MethodHandle 0 (libfacetPlatformMethodHandle ⟨0, 0, false⟩ 0)
      ∧ dispatchedMethod x86Abi quietChannel (libfacetPlatformMethodHandle ⟨0, 0, false⟩ 0)
          twoMethods hundredRequest = some 100 := by
  exact ⟨.bound _, by decide, .bound _, by decide⟩

/-- Handles for a method, cloned any number of times, confine their holder to that
method exactly when its number is not zero. -/
theorem method_handles_attenuate_iff (methodId : UInt32) :
    (∀ handle, MethodHandle methodId handle → Attenuates methodId handle) ↔ methodId ≠ 0 := by
  constructor
  · rintro hall rfl
    have hcall := hall _ (.bound ⟨0, 0, true⟩) x86Abi quietChannel twoMethods hundredRequest
    have hreached : dispatchedMethod x86Abi quietChannel
        (libfacetPlatformMethodHandle ⟨0, 0, true⟩ 0) twoMethods hundredRequest = some 100 := by
      decide
    rw [hreached] at hcall
    exact absurd hcall (by decide)
  · intro hrestricts handle hhandle
    have hmethod := hhandle.methodId_eq
    rw [← hmethod] at hrestricts ⊢
    exact attenuates_of_ne_zero hrestricts

/-- Whoever holds a handle for one method cannot tell objects apart that serve this
method alike: on every request the answers are the same, whatever else the objects
offer. -/
theorem method_handle_noninterference {methodId : UInt32} (hhandle : MethodHandle methodId handle)
    (hrestricts : methodId ≠ 0) {left right : FacetInterfaceMeta}
    (hsame : findMethod left methodId = findMethod right methodId) (abi : Sel4Abi)
    (channel : Channel) (request : RpcMessage) :
    callThrough abi channel handle (commonDispatch left) request
      = callThrough abi channel handle (commonDispatch right) request := by
  obtain ⟨refused, finish, hanswer⟩ := callThrough_factors abi channel handle request
  rw [hanswer, hanswer]
  cases hview : dispatchedRequest abi channel handle request with
  | none => rfl
  | some view =>
    obtain rfl := hhandle.methodId_eq
    have hmethod := dispatchedRequest_methodId hrestricts hview
    simp only [commonDispatch, servedMethod, hmethod, hsame]

theorem method_handle_noninterference_hundred :
    (findMethod twoMethods 0).isSome ∧ (findMethod twoMethods.tail 0).isNone
      ∧ callThrough x86Abi quietChannel (libfacetPlatformMethodHandle ⟨0, 0, false⟩ 100)
          (commonDispatch twoMethods) sampleRequest
        = callThrough x86Abi quietChannel (libfacetPlatformMethodHandle ⟨0, 0, false⟩ 100)
          (commonDispatch twoMethods.tail) sampleRequest :=
  ⟨rfl, rfl, method_handle_noninterference (.bound _) (by decide) rfl _ _ _⟩

end FacetOS.Transport
