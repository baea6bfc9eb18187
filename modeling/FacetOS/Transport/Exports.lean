import FacetOS.Transport.Service

/-!
# Exported objects of a service

Seen from outside, a service grants objects to badges: a successful export grants its
object to the badge it was minted with, and a removal takes the grant back.  The table
of the service follows this registry along every run, so messages reach the objects
that are granted to their badge.  Badges count the successful exports, slots count the
attempts.
-/

namespace FacetOS.Transport

open LittleEndian Registers Rpc Runs

variable {Object : Type}

/-! ## The registry -/

/-- The object that is granted to a badge. -/
abbrev Registry (Object : Type) := UInt64 → Option Object

/-- What an export or a removal and its result say about the grants. -/
def Registry.observe (registry : Registry Object) :
    ServiceEvent Object × ServiceOutput Object → Registry Object
  | (.platformExport (some object) _ _, .exported (some mint) (.ok _)) =>
    Function.update registry mint.badge (some object)
  | (.platformUnexport (some handle), .unexported (.ok _)) =>
    Function.update registry handle.objectId.toUInt64 none
  | _ => registry

/-- The grants after a run of a fresh service. -/
def grantedObjects (observed : List (ServiceEvent Object × ServiceOutput Object)) :
    Registry Object :=
  observed.foldl Registry.observe fun _ => none

/-- The capability that an event minted, if it called the kernel for one. -/
def mintOf : ServiceEvent Object × ServiceOutput Object → Option Mint
  | (_, .exported mint _) => mint
  | _ => none

/-- The capability of a successful export. -/
def exportOf : ServiceEvent Object × ServiceOutput Object → Option Mint
  | (_, .exported mint (.ok _)) => mint
  | _ => none

/-! ## One export -/

/-- What an export can do: it is refused, or it uses the next slot and the badge behind
the last one, and then fails or enters the object into the table. -/
theorem libfacetPlatformExport_cases (state : ServiceState Object) (object : Option Object)
    (minted memory : Bool) :
    ((object = none ∨ state.exports.length = serviceExportMax) ∧
        libfacetPlatformExport state object minted memory =
          ((none, .error .invalidArgument), state)) ∨
      ∃ exported, object = some exported ∧ state.exports.length < serviceExportMax ∧
        (libfacetPlatformExport state object minted memory).2.nextExportSlot =
          state.nextExportSlot + 1 ∧
        (libfacetPlatformExport state object minted memory).1.1 =
          some ⟨state.nextExportSlot, (UInt32.ofNat (state.exports.length + 1)).toUInt64⟩ ∧
        ((∃ failure, (libfacetPlatformExport state object minted memory).1.2 = .error failure ∧
            (libfacetPlatformExport state object minted memory).2.exports = state.exports) ∨
          ∃ handle, (libfacetPlatformExport state object minted memory).1.2 = .ok handle ∧
            (libfacetPlatformExport state object minted memory).2.exports =
              state.exports ++ [⟨some exported, state.nextExportSlot⟩]) := by
  cases object with
  | none => exact Or.inl ⟨Or.inl rfl, rfl⟩
  | some exported =>
    by_cases hfull : state.exports.length = serviceExportMax
    · refine Or.inl ⟨Or.inr hfull, ?_⟩
      simp [libfacetPlatformExport, hfull]
    · have hroom : state.exports.length < serviceExportMax :=
        Nat.lt_of_le_of_ne state.within hfull
      refine Or.inr ⟨exported, rfl, hroom, ?_⟩
      cases minted <;> cases memory <;> simp [libfacetPlatformExport, hfull]

theorem toNat_nextBadge {count : ℕ} (hcount : count < serviceExportMax) :
    ((UInt32.ofNat (count + 1)).toUInt64).toNat = count + 1 := by
  have hsmall : count < 64 := hcount
  rw [UInt32.toNat_toUInt64, UInt32.toNat_ofNat_of_lt']
  change count + 1 < 4294967296
  omega

variable {state next : ServiceState Object}

/-- The table behind an appended entry. -/
theorem exportedObject_append {object : Object} {slot : UInt64}
    (hroom : state.exports.length < serviceExportMax)
    (hexports : next.exports = state.exports ++ [⟨some object, slot⟩]) :
    exportedObject next = Function.update (exportedObject state)
      (UInt32.ofNat (state.exports.length + 1)).toUInt64 (some object) := by
  funext badge
  have hbadge := toNat_nextBadge hroom
  rw [exportedObject, hexports, List.length_append, List.length_singleton]
  by_cases hnew : badge = (UInt32.ofNat (state.exports.length + 1)).toUInt64
  · subst hnew
    have hpositive : (UInt32.ofNat (state.exports.length + 1)).toUInt64 ≠ 0 := by
      intro hzero
      rw [hzero] at hbadge
      cases hbadge
    rw [Function.update_self, hbadge, if_neg (not_or.mpr ⟨hpositive, lt_irrefl _⟩)]
    simp
  · have hne : badge.toNat ≠ state.exports.length + 1 := by
      intro heq
      exact hnew (UInt64.toNat_inj.mp (heq.trans hbadge.symm))
    rw [Function.update_of_ne hnew, exportedObject]
    by_cases hzero : badge = 0
    · simp [hzero]
    · have hpositive : badge.toNat ≠ 0 := fun hnat => hzero (UInt64.toNat_inj.mp hnat)
      by_cases hold : badge.toNat > state.exports.length
      · rw [if_pos (Or.inr (by omega)), if_pos (Or.inr hold)]
      · rw [if_neg (by simp [hzero]; omega), if_neg (by simp [hzero]; omega),
          List.getElem?_append_left (by omega)]

/-- The table behind a removed entry. -/
theorem exportedObject_set {objectId : UInt32}
    (hvalid : ¬ (objectId = 0 ∨ objectId.toNat > state.exports.length))
    (hexports : next.exports = state.exports.set (objectId.toNat - 1) ⟨none, 0⟩) :
    exportedObject next =
      Function.update (exportedObject state) objectId.toUInt64 none := by
  rw [not_or] at hvalid
  have hpositive : objectId.toNat ≠ 0 := fun hnat => hvalid.1 (UInt32.toNat_inj.mp hnat)
  funext badge
  rw [exportedObject, hexports, List.length_set]
  by_cases hremoved : badge = objectId.toUInt64
  · subst hremoved
    rw [Function.update_self, UInt32.toNat_toUInt64, List.getElem?_set_self (by omega)]
    simp
  · rw [Function.update_of_ne hremoved, exportedObject]
    by_cases hzero : badge = 0
    · simp [hzero]
    have hbadge : badge.toNat ≠ 0 := fun hnat => hzero (UInt64.toNat_inj.mp hnat)
    have hother : objectId.toNat - 1 ≠ badge.toNat - 1 := by
      intro heq
      apply hremoved
      apply UInt64.toNat_inj.mp
      rw [UInt32.toNat_toUInt64]
      omega
    rw [List.getElem?_set_ne hother]

theorem exportedObject_congr (hexports : next.exports = state.exports) :
    exportedObject next = exportedObject state := by
  funext badge
  rw [exportedObject, exportedObject, hexports]

/-- Messages leave the table and the slot counter alone. -/
theorem serviceRun_exports (abi : Sel4Abi) (serve : Object → Dispatch)
    (state : ServiceState Object) (arrival : Arrival) :
    (facetSel4ServiceRun abi serve state arrival).2.exports = state.exports ∧
      (facetSel4ServiceRun abi serve state arrival).2.nextExportSlot = state.nextExportSlot := by
  rw [facetSel4ServiceRun]
  cases decodeArrival arrival (receiveCap state.receiveSlot arrival.caps) with
  | error failure => exact ⟨rfl, rfl⟩
  | ok request => cases exportedObject state arrival.badge <;> exact ⟨rfl, rfl⟩

/-- The table of a service follows the registry. -/
theorem exportedObject_step (abi : Sel4Abi) (serve : Object → Dispatch)
    (state : ServiceState Object) (event : ServiceEvent Object) :
    exportedObject (event.step abi serve state).2 =
      Registry.observe (exportedObject state) (event, (event.step abi serve state).1) := by
  cases event with
  | platformExport object minted memory =>
    rw [ServiceEvent.step]
    rcases libfacetPlatformExport_cases state object minted memory with
      ⟨-, hrefused⟩ | ⟨exported, hobject, hroom, -, hmint, hfailed | hdone⟩
    · rw [hrefused]
      cases object <;> rfl
    · obtain ⟨failure, hresult, hexports⟩ := hfailed
      rw [hmint, hresult, exportedObject_congr hexports, hobject]
      rfl
    · obtain ⟨handle, hresult, hexports⟩ := hdone
      rw [hmint, hresult, exportedObject_append hroom hexports, hobject]
      rfl
  | platformUnexport handle =>
    rw [ServiceEvent.step]
    cases handle with
    | none => rfl
    | some native =>
      rw [libfacetPlatformUnexport]
      split
      · rfl
      · rename_i hvalid
        exact exportedObject_set hvalid rfl
  | message arrival => exact exportedObject_congr (serviceRun_exports abi serve state arrival).1

/-! ## Dispatch -/

/-- A reply without words of its own has the result code in its first register. -/
theorem encodeReply_blankReply (abi : Sel4Abi) (code : Int32) (stale : ℕ → UInt64) :
    ((encodeReply abi code blankReply).deliver stale).registers 0 = resultWord code := by
  have hcontrol := abi.control_le
  have hframed : encodeReply abi code blankReply = framedReply (withResult code blankReply) := by
    refine encodeReply_eq_framed rfl ?_ ?_ ?_ ?_ ?_ ?_
    · simp [FacetRpcMessage.HasPayload, withResult, blankReply]
    · simp [withResult, blankReply]
    · simp [withResult, blankReply, rpcMaxWords]
    · simp [withResult, blankReply]
    · simpa [withResult, blankReply, wordCount, wordBytes] using hcontrol
    · simp [withResult, blankReply]
  rw [hframed]
  exact ((framedReply_frames _).decoded (by simp [withResult, blankReply]) stale).1

/-- A message is dispatched only to the object behind its badge.  One that is accepted
reaches this object, or the answer is that the handle is invalid. -/
theorem serviceRun_dispatched (abi : Sel4Abi) (serve : Object → Dispatch)
    (state : ServiceState Object) (arrival : Arrival) :
    (∀ object view,
        (facetSel4ServiceRun abi serve state arrival).1.dispatched = some (object, view) →
        exportedObject state arrival.badge = some object) ∧
      (arrival.WellFormed → ∀ object, exportedObject state arrival.badge = some object →
        ∃ view, (facetSel4ServiceRun abi serve state arrival).1.dispatched =
          some (object, view)) ∧
      (arrival.WellFormed → exportedObject state arrival.badge = none →
        (facetSel4ServiceRun abi serve state arrival).1 =
          ⟨none, encodeReply abi FacetError.invalidHandle.code blankReply⟩) := by
  rw [facetSel4ServiceRun]
  cases hdecoded : decodeArrival arrival (receiveCap state.receiveSlot arrival.caps) with
  | error failure =>
    have hmalformed : ¬ arrival.WellFormed := by
      intro hwell
      obtain ⟨request, hrequest⟩ := decodeArrival_of_wellFormed hwell
        (receiveCap state.receiveSlot arrival.caps)
      rw [hdecoded] at hrequest
      cases hrequest
    refine ⟨?_, fun hwell => absurd hwell hmalformed, fun hwell => absurd hwell hmalformed⟩
    intro object view hdispatched
    cases hdispatched
  | ok request =>
    cases exportedObject state arrival.badge with
    | none =>
      refine ⟨?_, ?_, fun _ _ => rfl⟩
      · intro object view hdispatched
        cases hdispatched
      · intro _ object hobject
        cases hobject
    | some object =>
      refine ⟨?_, ?_, fun _ hnone => by cases hnone⟩
      · intro other view hdispatched
        cases hdispatched
        rfl
      · intro _ other hobject
        cases hobject
        exact ⟨_, rfl⟩

/-! ## Badges and slots -/

/-- A slot among the `SERVICE_EXPORT_MAX` ones from the first export slot on. -/
def ExportSlot (first slot : UInt64) : Prop :=
  first.toNat ≤ slot.toNat ∧ slot.toNat < first.toNat + serviceExportMax

theorem exportOf_sublist (observed : List (ServiceEvent Object × ServiceOutput Object)) :
    (observed.filterMap exportOf).Sublist (observed.filterMap mintOf) := by
  induction observed with
  | nil => exact List.Sublist.refl _
  | cons first rest ih =>
    obtain ⟨event, output⟩ := first
    cases output with
    | exported mint result =>
      cases result with
      | error failure =>
        cases mint with
        | none => simpa [List.filterMap_cons, exportOf, mintOf] using ih
        | some mint =>
          simpa [List.filterMap_cons, exportOf, mintOf] using ih.cons _
      | ok handle =>
        cases mint with
        | none => simpa [List.filterMap_cons, exportOf, mintOf] using ih
        | some mint => simpa [List.filterMap_cons, exportOf, mintOf] using ih
    | unexported result => simpa [List.filterMap_cons, exportOf, mintOf] using ih
    | answered answer => simpa [List.filterMap_cons, exportOf, mintOf] using ih

section

variable (abi : Sel4Abi) (serve : Object → Dispatch)

/-- A step exports nothing and keeps the number of exports, or it exports with the
badge that is the new number. -/
theorem exportOf_step (state : ServiceState Object) (event : ServiceEvent Object) :
    (exportOf (event, (event.step abi serve state).1) = none ∧
        (event.step abi serve state).2.exports.length = state.exports.length) ∨
      ∃ mint, exportOf (event, (event.step abi serve state).1) = some mint ∧
        mint.badge.toNat = state.exports.length + 1 ∧
        (event.step abi serve state).2.exports.length = state.exports.length + 1 := by
  cases event with
  | platformExport object minted memory =>
    rw [ServiceEvent.step]
    dsimp only
    rcases libfacetPlatformExport_cases state object minted memory with
      ⟨-, hrefused⟩ | ⟨exported, -, hroom, -, hmint, hfailed | hdone⟩
    · rw [hrefused]
      exact Or.inl ⟨rfl, rfl⟩
    · obtain ⟨failure, hresult, hexports⟩ := hfailed
      rw [hresult, hexports]
      exact Or.inl ⟨rfl, rfl⟩
    · obtain ⟨handle, hresult, hexports⟩ := hdone
      rw [hmint, hresult, hexports]
      refine Or.inr ⟨_, rfl, toNat_nextBadge hroom, ?_⟩
      rw [List.length_append, List.length_singleton]
  | platformUnexport handle =>
    refine Or.inl ⟨rfl, ?_⟩
    rw [ServiceEvent.step]
    unfold libfacetPlatformUnexport
    split
    · rfl
    · split
      · rfl
      · exact List.length_set
  | message arrival =>
    exact Or.inl ⟨rfl, congrArg List.length (serviceRun_exports abi serve state arrival).1⟩

/-- The badges of a run are larger than the number of exports it starts with, and
pairwise different. -/
theorem badges_trace (state : ServiceState Object) (events : List (ServiceEvent Object)) :
    (∀ mint ∈ (trace (ServiceEvent.step abi serve) state events).filterMap exportOf,
        state.exports.length < mint.badge.toNat) ∧
      (((trace (ServiceEvent.step abi serve) state events).filterMap exportOf).map
        Mint.badge).Nodup := by
  induction events generalizing state with
  | nil => simp [trace]
  | cons event events ih =>
    obtain ⟨hlarger, hnodup⟩ := ih (event.step abi serve state).2
    rw [trace]
    rcases exportOf_step abi serve state event with
      ⟨hnone, hcount⟩ | ⟨mint, hmint, hbadge, hcount⟩
    · rw [List.filterMap_cons_none hnone]
      rw [hcount] at hlarger
      exact ⟨hlarger, hnodup⟩
    · rw [List.filterMap_cons_some hmint, List.map_cons, List.nodup_cons]
      rw [hcount] at hlarger
      refine ⟨?_, ?_, hnodup⟩
      · intro other hother
        cases List.mem_cons.mp hother with
        | inl hsame =>
          rw [hsame]
          omega
        | inr hlater => exact (Nat.lt_succ_self _).trans (hlarger other hlater)
      · intro hmem
        obtain ⟨other, hother, hsame⟩ := List.mem_map.mp hmem
        have hless := hlarger other hother
        rw [hsame] at hless
        omega

/-- A step uses no slot, or it is an export that uses the next one. -/
theorem mintOf_step (state : ServiceState Object) (event : ServiceEvent Object) :
    (mintOf (event, (event.step abi serve state).1) = none ∧
        (event.step abi serve state).2.nextExportSlot = state.nextExportSlot) ∨
      ∃ mint, mintOf (event, (event.step abi serve state).1) = some mint ∧
        mint.destination = state.nextExportSlot ∧
        (event.step abi serve state).2.nextExportSlot = state.nextExportSlot + 1 := by
  cases event with
  | platformExport object minted memory =>
    rw [ServiceEvent.step]
    dsimp only
    rcases libfacetPlatformExport_cases state object minted memory with
      ⟨-, hrefused⟩ | ⟨exported, -, -, hslot, hmint, -⟩
    · rw [hrefused]
      exact Or.inl ⟨rfl, rfl⟩
    · rw [hslot, hmint]
      exact Or.inr ⟨_, rfl, rfl, rfl⟩
  | platformUnexport handle =>
    refine Or.inl ⟨rfl, ?_⟩
    rw [ServiceEvent.step]
    unfold libfacetPlatformUnexport
    split
    · rfl
    · split <;> rfl
  | message arrival => exact Or.inl ⟨rfl, (serviceRun_exports abi serve state arrival).2⟩

/-- The attempts of a run use one slot after the other, whether they succeed or not. -/
theorem destinations_trace (state : ServiceState Object) (events : List (ServiceEvent Object)) :
    let mints := (trace (ServiceEvent.step abi serve) state events).filterMap mintOf
    mints.map Mint.destination
      = (List.range mints.length).map fun count => state.nextExportSlot + count.toUInt64 := by
  induction events generalizing state with
  | nil => rfl
  | cons event events ih =>
    have hrest := ih (event.step abi serve state).2
    rw [trace]
    rcases mintOf_step abi serve state event with ⟨hnone, hslot⟩ | ⟨mint, hmint, hfirst, hslot⟩
    · rw [hslot] at hrest
      rwa [List.filterMap_cons_none hnone]
    · rw [hslot] at hrest
      rw [List.filterMap_cons_some hmint]
      dsimp only at hrest ⊢
      rw [List.map_cons, hrest, hfirst, List.length_cons, List.range_succ_eq_map, List.map_cons,
        List.map_map]
      congr 1
      · simp
      · refine List.map_congr_left fun count _ => ?_
        simp only [Function.comp_apply, Nat.toUInt64_eq, Nat.succ_eq_add_one, UInt64.ofNat_add]
        rw [UInt64.add_assoc, UInt64.add_comm 1]
        rfl

end

theorem toNat_slot {first : UInt64} (hfirst : first.toNat < 2 ^ 32) {count : ℕ}
    (hcount : count ≤ serviceExportMax) :
    (first + count.toUInt64).toNat = first.toNat + count := by
  unfold serviceExportMax at hcount
  rw [Nat.toUInt64_eq, UInt64.toNat_add, UInt64.toNat_ofNat']
  omega

/-- Slots that follow one another stay in the range exactly if they are not too many, and then
they are different. -/
theorem slots_iff {first : UInt64} (hfirst : first.toNat < 2 ^ 32) {mints : List Mint}
    (hmints : mints.map Mint.destination
      = (List.range mints.length).map fun count => first + count.toUInt64) :
    ((∀ mint ∈ mints, ExportSlot first mint.destination) ↔ mints.length ≤ serviceExportMax) ∧
      (mints.length ≤ serviceExportMax → (mints.map Mint.destination).Nodup) := by
  have hslots : (∀ mint ∈ mints, ExportSlot first mint.destination) ↔
      ∀ count < mints.length, ExportSlot first (first + count.toUInt64) := by
    rw [← List.forall_mem_map (f := Mint.destination), hmints]
    simp
  refine ⟨hslots.trans ⟨fun hall => ?_, fun hlength count hcount => ?_⟩, fun hlength => ?_⟩
  · by_contra hmore
    have hlast := (hall serviceExportMax (not_le.mp hmore)).2
    rw [toNat_slot hfirst le_rfl] at hlast
    omega
  · rw [ExportSlot, toNat_slot hfirst (hcount.le.trans hlength)]
    omega
  · rw [hmints]
    refine List.nodup_range.map_on fun left hleft right hright heq => ?_
    have hnat := congrArg UInt64.toNat heq
    rw [List.mem_range] at hleft hright
    rw [toNat_slot hfirst (by omega), toNat_slot hfirst (by omega)] at hnat
    omega

theorem facetSel4ServiceInit_eq_ok {endpoint cnode receiveSlot firstExportSlot depth : UInt64}
    (hinit : facetSel4ServiceInit endpoint cnode receiveSlot firstExportSlot depth = .ok state) :
    firstExportSlot.toNat < 2 ^ 32 ∧ state.nextExportSlot = firstExportSlot ∧
      state.exports = [] := by
  rw [facetSel4ServiceInit] at hinit
  split at hinit
  · cases hinit
  rename_i hvalid
  cases hinit
  simp only [not_or] at hvalid
  obtain ⟨-, -, -, -, -, -, -, hfirst, -⟩ := hvalid
  refine ⟨?_, rfl, rfl⟩
  have hle : firstExportSlot ≤ 0xffffffff := UInt64.not_lt.mp hfirst
  have hnat : firstExportSlot.toNat ≤ 4294967295 := UInt64.le_iff_toNat_le.mp hle
  omega

/-- Along every run of a fresh service: a message is dispatched only to the object that
is granted to its badge, an accepted message reaches this object or is told that the
handle is invalid, and no two exports share a badge.  No two exports share a slot and
all slots stay in the range exactly if there are not more attempts, failed or not, than
slots. -/
theorem service_exports_iff (abi : Sel4Abi) (serve : Object → Dispatch)
    (endpoint cnode receiveSlot firstExportSlot depth : UInt64) (state : ServiceState Object)
    (hinit : facetSel4ServiceInit endpoint cnode receiveSlot firstExportSlot depth = .ok state)
    (events : List (ServiceEvent Object)) :
    let observed := trace (ServiceEvent.step abi serve) state events
    let reached := (outputs (ServiceEvent.step abi serve) state events).2
    (∀ arrival,
      (∀ object view,
        (facetSel4ServiceRun abi serve reached arrival).1.dispatched = some (object, view) →
        grantedObjects observed arrival.badge = some object) ∧
      (arrival.WellFormed → ∀ object, grantedObjects observed arrival.badge = some object →
        ∃ view, (facetSel4ServiceRun abi serve reached arrival).1.dispatched =
          some (object, view)) ∧
      (arrival.WellFormed → grantedObjects observed arrival.badge = none → ∀ stale,
        (((facetSel4ServiceRun abi serve reached arrival).1.reply).deliver stale).registers 0 =
          resultWord FacetError.invalidHandle.code)) ∧
      ((observed.filterMap exportOf).map Mint.badge).Nodup ∧
      ((((observed.filterMap exportOf).map Mint.destination).Nodup ∧
          ∀ mint ∈ observed.filterMap mintOf, ExportSlot firstExportSlot mint.destination) ↔
        (observed.filterMap mintOf).length ≤ serviceExportMax) := by
  intro observed reached
  obtain ⟨hfirst, hslot, hexports⟩ := facetSel4ServiceInit_eq_ok hinit
  have hfresh : exportedObject state = fun _ => none := by
    funext badge
    simp [exportedObject, hexports]
  have hregistry : exportedObject reached = grantedObjects observed := by
    rw [grantedObjects, ← hfresh]
    exact simulates_trace (exportedObject_step abi serve) state events
  have hmints := destinations_trace abi serve state events
  rw [hslot] at hmints
  obtain ⟨hrange, hnodup⟩ := slots_iff hfirst hmints
  refine ⟨?_, (badges_trace abi serve state events).2, ?_⟩
  · intro arrival
    obtain ⟨honly, hreaches, hinvalid⟩ := serviceRun_dispatched abi serve reached arrival
    rw [hregistry] at honly hreaches hinvalid
    refine ⟨honly, hreaches, fun hwell hnone stale => ?_⟩
    rw [hinvalid hwell hnone]
    exact encodeReply_blankReply abi _ stale
  · exact ⟨fun hslots => hrange.mp hslots.2, fun hlength =>
      ⟨(hnodup hlength).sublist ((exportOf_sublist _).map _), hrange.mpr hlength⟩⟩

/-- Exports of one object with the given fortunes. -/
def attempts (minted : List Bool) : List (ServiceEvent Unit) :=
  minted.map fun success => .platformExport (some ()) success true

def freshService : ServiceState Unit where
  receiveSlot := none
  nextExportSlot := 100
  exports := []
  within := by decide

/-- Two exports, of which the first fails. -/
theorem service_exports_pair :
    ((trace (ServiceEvent.step x86Abi quietDispatch) freshService
      (attempts [false, true])).filterMap exportOf).map Mint.destination = [101] ∧
      ∀ mint ∈ (trace (ServiceEvent.step x86Abi quietDispatch) freshService
        (attempts [false, true])).filterMap mintOf, ExportSlot 100 mint.destination := by
  have hslots := (service_exports_iff x86Abi quietDispatch 1 1 1 100 1 freshService rfl
    (attempts [false, true])).2.2.mpr (by decide)
  exact ⟨rfl, hslots.2⟩

/-- After one failed export, 64 successful ones reach the slot behind the range. -/
theorem export_slot_leaves_range :
    ⟨164, 64⟩ ∈ (trace (ServiceEvent.step x86Abi quietDispatch) freshService
      (attempts (false :: List.replicate 64 true))).filterMap exportOf ∧
      ¬ ExportSlot 100 164 := by
  refine ⟨by decide +kernel, fun hrange => ?_⟩
  exact absurd hrange.2 (by decide)

end FacetOS.Transport
