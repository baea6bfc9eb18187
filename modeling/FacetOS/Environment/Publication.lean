import FacetOS.Environment.Services
import FacetOS.Transport.Ownership

/-!
# Lifetime of published services

A publication that arrives by message hands the environment a handle which the
server thread made for the request.  The environment enters that handle in its
table without cloning it, and the server thread frees it as soon as the reply
has been sent.
-/

namespace FacetOS.Environment

open Rpc Transport

section Publications

variable {Iid : Type} (iidOf : BuiltIn → Iid)

/-- A domain environment whose handles are numbers in the table of live handles. -/
structure SystemState (Iid : Type) where
  environment : DomainEnvironment Iid ℕ
  handles : Handles

/-- A publication as a client sends it, with what the server thread can make of it. -/
structure Publication (Iid : Type) where
  name : List UInt8
  iid : Iid
  service : Capability
  attach : ℕ → Bool
  abi : Sel4Abi
  frame : Except FacetError Unit

/-- The handles that the server thread makes for a publication, and the table in which
the environment is called. -/
def Publication.attached (publication : Publication Iid) (handles : Handles) : List ℕ × Handles :=
  attachRequest publication.attach 0 [some publication.service] handles

/-- The answer of the environment, which gets the first attached handle. -/
def Publication.publish (publication : Publication Iid) (state : SystemState Iid) :
    Except FacetError (DomainEnvironment Iid ℕ) :=
  environmentPublishService iidOf state.environment publication.name publication.iid
    (publication.attached state.handles).1.head?

/-- A publication by message: the request's handles are freed behind the dispatcher,
which returns none. -/
def publishByMessage (state : SystemState Iid) (publication : Publication Iid) :
    SystemState Iid where
  environment := ((publication.publish iidOf state).toOption).getD state.environment
  handles := serverCleanup publication.abi publication.frame
    (publication.attached state.handles).1 (idleOutcome (publication.attached state.handles).2)

/-- What happens later: further publications, bindings inside the environment's
process, and handles that come and go anywhere. -/
inductive SystemStep (Iid : Type)
  | publish (publication : Publication Iid)
  | bind (operation : Operation Iid ℕ)
  | create (handle : Sel4Handle)
  | release (id : ℕ)

def SystemStep.next (state : SystemState Iid) : SystemStep Iid → SystemState Iid
  | .publish publication => publishByMessage iidOf state publication
  | .bind operation => { state with environment := (perform iidOf state.environment operation).2 }
  | .create handle => { state with handles := state.handles.create handle }
  | .release id => { state with handles := state.handles.release id }

/-- The state after a sequence of steps. -/
def later (state : SystemState Iid) (steps : List (SystemStep Iid)) : SystemState Iid :=
  steps.foldl (SystemStep.next iidOf) state

/-! ## Dead handles stay dead -/

/-- A handle that was made and is no longer live. -/
def Dead (handles : Handles) (id : ℕ) : Prop :=
  id < handles.next ∧ handles.entry id = none

variable {id : ℕ} {state : SystemState Iid} {handles : Handles}
  {environment bound : DomainEnvironment Iid ℕ} {name : List UInt8}

theorem dead_create (hdead : Dead handles id) (handle : Sel4Handle) :
    Dead (handles.create handle) id := by
  refine ⟨hdead.1.trans (Nat.lt_succ_self _), ?_⟩
  rw [HandleTable.entry_create_of_ne _ _ hdead.1.ne]
  exact hdead.2

theorem dead_release (hdead : Dead handles id) (other : ℕ) :
    Dead (handles.release other) id := by
  refine ⟨by simpa using hdead.1, ?_⟩
  by_cases heq : id = other
  · rw [heq, HandleTable.entry_release_self]
  · rw [HandleTable.entry_release_of_ne _ heq]
    exact hdead.2

theorem dead_releaseAll (hdead : Dead handles id) (ids : List ℕ) :
    Dead (handles.releaseAll ids) id := by
  induction ids generalizing handles with
  | nil => exact hdead
  | cons first rest ih => exact ih (dead_release hdead first)

theorem Publication.acquired (publication : Publication Iid) (handles : Handles) :
    HandleTable.Acquired handles (publication.attached handles).2
      (publication.attached handles).1 :=
  acquired_attachRequest publication.attach 0 _ (HandleTable.Acquired.refl handles)

theorem dead_publishByMessage (hdead : Dead state.handles id) (publication : Publication Iid) :
    Dead (publishByMessage iidOf state publication).handles id := by
  change Dead ((publication.attached state.handles).2.releaseAll _) id
  apply dead_releaseAll
  have hattached := publication.acquired state.handles
  refine ⟨hdead.1.trans_le hattached.next_le, ?_⟩
  rw [hattached.entry_old id hdead.1]
  exact hdead.2

theorem dead_next (hdead : Dead state.handles id) (step : SystemStep Iid) :
    Dead (step.next iidOf state).handles id := by
  cases step with
  | publish publication => exact dead_publishByMessage iidOf hdead publication
  | bind operation => exact hdead
  | create handle => exact dead_create hdead handle
  | release other => exact dead_release hdead other

theorem dead_later (hdead : Dead state.handles id) (steps : List (SystemStep Iid)) :
    Dead (later iidOf state steps).handles id := by
  induction steps generalizing state with
  | nil => exact hdead
  | cons step steps ih => exact ih (dead_next iidOf hdead step)

/-! ## Bindings stay as they are -/

theorem extends_next (state : SystemState Iid) (step : SystemStep Iid) :
    Extends state.environment (step.next iidOf state).environment := by
  cases step with
  | publish publication =>
    change Extends state.environment
      (((publication.publish iidOf state).toOption).getD state.environment)
    cases hpublish : publication.publish iidOf state with
    | error failure => exact Extends.refl _
    | ok bound => exact extends_of_publishService iidOf hpublish
  | bind operation => exact extends_perform iidOf state.environment operation
  | create handle => exact Extends.refl _
  | release id => exact Extends.refl _

theorem extends_later (state : SystemState Iid) (steps : List (SystemStep Iid)) :
    Extends state.environment (later iidOf state steps).environment := by
  induction steps generalizing state with
  | nil => exact Extends.refl _
  | cons step steps ih => exact (extends_next iidOf state step).trans (ih _)

/-! ## What a publication leaves behind -/

/-- The C string in the name of a publication was free, so that it is bound to the
published handle or, if it is a built-in name, not at all. -/
theorem published_binding {iid primaryIid : Iid} {service found : ℕ}
    (hpublish : environmentPublishService iidOf environment name iid (some service) = .ok bound)
    (hbound : processBinding iidOf bound (cString name) = .ok (primaryIid, found)) :
    found = service := by
  have hbuiltIn := not_builtIn_of_published iidOf hpublish hbound
  rw [processBinding_of_publishService iidOf hpublish hbuiltIn, Except.ok.injEq] at hbound
  exact (congrArg Prod.snd hbound).symm

/-- A publication that succeeds was given a handle of the request. -/
theorem attached_of_publish {publication : Publication Iid}
    (hpublish : publication.publish iidOf state = .ok bound) :
    (publication.attached state.handles).1 = [state.handles.next] := by
  by_cases hattach : publication.attach 0 = true
  · simp [Publication.attached, attachRequest, hattach]
  · have hnone : (publication.attached state.handles).1 = [] := by
      simp [Publication.attached, attachRequest, hattach]
    rw [Publication.publish, hnone] at hpublish
    simp [environmentPublishService] at hpublish

/-- That handle is dead when the publication has been answered. -/
theorem dead_published {publication : Publication Iid}
    (hpublish : publication.publish iidOf state = .ok bound) :
    Dead (publishByMessage iidOf state publication).handles state.handles.next := by
  have hids := attached_of_publish iidOf hpublish
  have hattached := publication.acquired state.handles
  change Dead ((publication.attached state.handles).2.releaseAll
    (publication.attached state.handles).1) _
  have hmem : state.handles.next ∈ (publication.attached state.handles).1 := by
    rw [hids]
    exact List.mem_singleton_self _
  refine ⟨?_, HandleTable.entry_releaseAll_of_mem _ hmem⟩
  rw [HandleTable.next_releaseAll]
  exact HandleTable.lt_next_of_live ((hattached.live_new _ le_rfl).mpr hmem)

end Publications

section Lookups

variable {Iid : Type} [DecidableEq Iid] (iidOf : BuiltIn → Iid)

/-- The lookup finds a live handle that designates `service`. -/
def Reaches (state : SystemState Iid) (lookup : Lookup Iid) (name : List UInt8)
    (service : Capability) : Prop :=
  ∃ id handle, lookup.find iidOf state.environment name = .ok id
    ∧ state.handles.entry id = some handle ∧ handle.endpoint = service

/-- Whatever a lookup finds is bound under the C string in its name. -/
theorem processBinding_of_find {environment : DomainEnvironment Iid ℕ} {name : List UInt8}
    {lookup : Lookup Iid} {found : ℕ}
    (hfind : lookup.find iidOf environment name = .ok found) :
    ∃ iid, processBinding iidOf environment (cString name) = .ok (iid, found) := by
  cases lookup with
  | resolveService iid =>
    exact ⟨iid, ((environmentResolveService_eq_ok_iff iidOf).mp hfind).2⟩
  | resolve =>
    obtain ⟨iid, hbound⟩ := (processResolve_eq_ok_iff iidOf).mp hfind
    exact ⟨iid, by rwa [cString_eq_self (zero_not_mem_of_processBinding iidOf hbound)]⟩
  | resolveAs iid =>
    have hbound := (processResolveAs_eq_ok_iff iidOf).mp hfind
    exact ⟨iid, by rwa [cString_eq_self (zero_not_mem_of_processBinding iidOf hbound)]⟩

/-- A service that was published by message is never reached: right after the call no
lookup of its name finds a live handle, and under a name that is not built in none
does in any later state. -/
theorem published_never_reached (state : SystemState Iid) (publication : Publication Iid)
    (bound : DomainEnvironment Iid ℕ) (hpublish : publication.publish iidOf state = .ok bound) :
    (∀ lookup : Lookup Iid, ¬ ∀ steps, Reaches iidOf
      (later iidOf (publishByMessage iidOf state publication) steps) lookup publication.name
      publication.service)
    ∧ ((∀ service : BuiltIn, service.name ≠ cString publication.name) →
      ∀ steps (lookup : Lookup Iid), ¬ Reaches iidOf
        (later iidOf (publishByMessage iidOf state publication) steps) lookup publication.name
        publication.service) := by
  have hdead := dead_published iidOf hpublish
  have henvironment : (publishByMessage iidOf state publication).environment = bound := by
    simp [publishByMessage, hpublish, Except.toOption]
  have hservice : environmentPublishService iidOf state.environment publication.name
      publication.iid (some state.handles.next) = .ok bound := by
    rw [Publication.publish, attached_of_publish iidOf hpublish] at hpublish
    exact hpublish
  -- A lookup that finds the published handle finds a dead one.
  have hunreached : ∀ steps (lookup : Lookup Iid),
      (∀ found iid, processBinding iidOf
        (later iidOf (publishByMessage iidOf state publication) steps).environment
        (cString publication.name) = .ok (iid, found) → found = state.handles.next) →
      ¬ Reaches iidOf (later iidOf (publishByMessage iidOf state publication) steps) lookup
        publication.name publication.service := by
    rintro steps lookup hfound ⟨id, handle, hfind, hentry, -⟩
    obtain ⟨iid, hbound⟩ := processBinding_of_find iidOf hfind
    rw [hfound id iid hbound, (dead_later iidOf hdead steps).2] at hentry
    contradiction
  constructor
  · intro lookup hvalid
    apply hunreached [] lookup _ (hvalid [])
    intro found iid hbound
    change processBinding iidOf (publishByMessage iidOf state publication).environment _ = _
      at hbound
    rw [henvironment] at hbound
    exact published_binding iidOf hservice hbound
  · intro hbuiltIn steps lookup
    apply hunreached steps lookup
    intro found iid hbound
    have hextends := extends_later iidOf (publishByMessage iidOf state publication) steps
    rw [henvironment] at hextends
    have hpublished := processBinding_of_extends iidOf hextends
      (processBinding_of_publishService iidOf hservice hbuiltIn)
    rw [hbound, Except.ok.injEq] at hpublished
    exact congrArg Prod.snd hpublished

end Lookups

/-! ## One publication -/

/-- An environment right after its initialisation. -/
def quietState : SystemState ℕ :=
  ⟨dominit0EnvironmentInitialize 0 1,
    (HandleTable.empty.create ⟨.endpoint 0, false⟩).create ⟨.endpoint 1, false⟩⟩

/-- A client publishes its object 7 as `clock`. -/
def clockPublication : Publication ℕ where
  name := ascii "clock"
  iid := 9
  service := .endpoint 7
  attach := fun _ => true
  abi := x86Abi
  frame := .ok ()

theorem clock_never_reached :
    ∃ bound, clockPublication.publish sampleIid quietState = .ok bound
      ∧ ∀ steps (lookup : Lookup ℕ), ¬ Reaches sampleIid
        (later sampleIid (publishByMessage sampleIid quietState clockPublication) steps) lookup
        clockPublication.name clockPublication.service := by
  refine ⟨_, rfl, ?_⟩
  refine (published_never_reached sampleIid quietState clockPublication _ rfl).2 ?_
  intro service
  cases service <;> decide

/-- The lookup that follows returns handle 2, which has been freed. -/
theorem clock_dangles :
    environmentResolveService sampleIid
        (publishByMessage sampleIid quietState clockPublication).environment (ascii "clock") 9
        = .ok 2
      ∧ ¬ (publishByMessage sampleIid quietState clockPublication).handles.Live 2
      ∧ (publishByMessage sampleIid quietState clockPublication).handles.releases 2 = 1 :=
  ⟨rfl, by decide, by decide⟩

end FacetOS.Environment
