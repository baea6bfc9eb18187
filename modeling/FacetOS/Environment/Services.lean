import FacetOS.Core.Text
import FacetOS.Core.Runs
import FacetOS.Core.Passes
import FacetOS.Rpc.Common

/-!
# Services of a domain environment

A domain environment answers four built-in names from handles of its own and
every other name from a table of at most sixteen bindings that only grows.  The
built-in names are looked at first, whether or not they are bound yet.

Clients publish and look up services under counted strings.  Publication passes
the name on as a C string, so that only the bytes before the first zero byte are
bound.
-/

namespace FacetOS.Environment

open Rpc
open Passes (bind_eq_ok)

/-- `DOMINIT0_EXTRA_BINDINGS_MAX` -/
def extraBindingsMax : ℕ := 16

/-- The names that `process_binding` knows by itself, in its order. -/
inductive BuiltIn
  | logger
  | memoryPages
  | domainConfig
  | files
  deriving DecidableEq, Repr

def BuiltIn.all : List BuiltIn := [.logger, .memoryPages, .domainConfig, .files]

def BuiltIn.name : BuiltIn → List UInt8
  | .logger => ascii "logger"
  | .memoryPages => ascii "memory.pages"
  | .domainConfig => ascii "domain.config"
  | .files => ascii "files"

/-- The names every entry point accepts. -/
def ValidName (name : List UInt8) : Prop :=
  name ≠ [] ∧ name.length ≤ 127 ∧ facetUtf8IsValid name = true

instance (name : List UInt8) : Decidable (ValidName name) :=
  inferInstanceAs (Decidable (_ ∧ _ ∧ _))

/-- `ProcessBindingEntry`.  Only valid C strings and handles that are not null
are entered. -/
structure BindingEntry (Iid Handle : Type) where
  name : List UInt8
  primaryIid : Iid
  handle : Handle
  name_valid : ValidName name
  name_cString : 0 ∉ name

/-- `Dominit0DomainEnvironment`, as far as names are concerned; `none` is a null
handle. -/
structure DomainEnvironment (Iid Handle : Type) where
  loggerHandle : Option Handle
  pageAllocatorHandle : Option Handle
  domainConfigHandle : Option Handle
  fileStoreHandle : Option Handle
  extraBindings : List (BindingEntry Iid Handle)

variable {name : List UInt8}

section Services

variable {Iid Handle : Type} (iidOf : BuiltIn → Iid)
variable {environment bound : DomainEnvironment Iid Handle} {iid : Iid} {handle : Handle}
  {service : Option Handle} {binding : Iid × Handle}
variable (environment)

def DomainEnvironment.builtIn : BuiltIn → Option Handle
  | .logger => environment.loggerHandle
  | .memoryPages => environment.pageAllocatorHandle
  | .domainConfig => environment.domainConfigHandle
  | .files => environment.fileStoreHandle

/-- A domain environment as `dominit0_environment_initialize` leaves it. -/
def dominit0EnvironmentInitialize (logger domainConfig : Handle) :
    DomainEnvironment Iid Handle where
  loggerHandle := some logger
  pageAllocatorHandle := none
  domainConfigHandle := some domainConfig
  fileStoreHandle := none
  extraBindings := []

def processBinding (name : List UInt8) : Except FacetError (Iid × Handle) :=
  if ¬ ValidName name then .error .invalidArgument
  else
    match BuiltIn.all.find? (fun service => service.name = name) with
    | some service =>
      match environment.builtIn service with
      | none => .error .invalidHandle
      | some handle => .ok (iidOf service, handle)
    | none =>
      match environment.extraBindings.find? (fun entry => entry.name = name) with
      | none => .error .noInterface
      | some entry => .ok (entry.primaryIid, entry.handle)

/-! ## Lookups -/

def processResolve (name : List UInt8) : Except FacetError Handle :=
  (processBinding iidOf environment name).map Prod.snd

def dominit0EnvironmentResolveNamed (name : List UInt8) : Except FacetError (Iid × Handle) :=
  processBinding iidOf environment (cString name)

/-- The four built-in bindings in order; one that is not bound fails the whole
listing. -/
def listBuiltIn : List BuiltIn → Except FacetError (List (List UInt8 × Iid))
  | [] => .ok []
  | service :: services =>
    match processBinding iidOf environment service.name with
    | .error _ => .error .invalidHandle
    | .ok binding => do
        let rest ← listBuiltIn services
        return (service.name, binding.1) :: rest

def processListBindings : Except FacetError (List (List UInt8 × Iid)) := do
  let builtIn ← listBuiltIn iidOf environment BuiltIn.all
  return builtIn ++ environment.extraBindings.map (fun entry => (entry.name, entry.primaryIid))

/-! ## Bindings -/

def dominit0EnvironmentBindPageAllocator (pageAllocator : Option Handle) :
    Option (DomainEnvironment Iid Handle) :=
  if pageAllocator.isNone ∨ environment.pageAllocatorHandle.isSome then none
  else some { environment with pageAllocatorHandle := pageAllocator }

def dominit0EnvironmentBindFileStore (fileStore : Option Handle) :
    Option (DomainEnvironment Iid Handle) :=
  if fileStore.isNone ∨ environment.fileStoreHandle.isSome then none
  else some { environment with fileStoreHandle := fileStore }

/-- `name` is the buffer that the C string starts in. -/
def dominit0EnvironmentBindNamed (name : List UInt8) (primaryIid : Iid) (object : Option Handle) :
    Option (DomainEnvironment Iid Handle) :=
  match object with
  | none => none
  | some handle =>
    if hname : ValidName (cString name) then
      if environment.extraBindings.length = extraBindingsMax then none
      else if (processBinding iidOf environment (cString name)).isOk then none
      else
        let entry :=
          { name := cString name
            primaryIid := primaryIid
            handle := handle
            name_valid := hname
            name_cString := zero_not_mem_cString name }
        some { environment with extraBindings := environment.extraBindings ++ [entry] }
    else none

def environmentPublishService (name : List UInt8) (iid : Iid) (service : Option Handle) :
    Except FacetError (DomainEnvironment Iid Handle) :=
  if service.isNone ∨ ¬ ValidName name then .error .invalidArgument
  else
    match dominit0EnvironmentBindNamed iidOf environment (name ++ [0]) iid service with
    | none => .error .accessDenied
    | some bound => .ok bound

/-! ## Runs -/

/-- The operations that change the bindings of an environment. -/
inductive Operation (Iid Handle : Type)
  | bindPageAllocator (pageAllocator : Option Handle)
  | bindFileStore (fileStore : Option Handle)
  | bindNamed (name : List UInt8) (primaryIid : Iid) (object : Option Handle)
  | publishService (name : List UInt8) (iid : Iid) (service : Option Handle)

/-- Whether an operation succeeds, and the environment it leaves; a failed one
changes nothing. -/
def perform : Operation Iid Handle → Bool × DomainEnvironment Iid Handle
  | .bindPageAllocator pageAllocator =>
    let bound := dominit0EnvironmentBindPageAllocator environment pageAllocator
    (bound.isSome, bound.getD environment)
  | .bindFileStore fileStore =>
    let bound := dominit0EnvironmentBindFileStore environment fileStore
    (bound.isSome, bound.getD environment)
  | .bindNamed name primaryIid object =>
    let bound := dominit0EnvironmentBindNamed iidOf environment name primaryIid object
    (bound.isSome, bound.getD environment)
  | .publishService name iid service =>
    let bound := environmentPublishService iidOf environment name iid service
    (bound.isOk, bound.toOption.getD environment)

/-- The environment after a sequence of operations. -/
def after (operations : List (Operation Iid Handle)) : DomainEnvironment Iid Handle :=
  (Runs.outputs (perform iidOf) environment operations).2

variable {environment}

/-! ## Environments only grow -/

/-- `later` keeps the bound built-in names and the table of `earlier`. -/
structure Extends (earlier later : DomainEnvironment Iid Handle) : Prop where
  builtIn : ∀ service handle, earlier.builtIn service = some handle →
    later.builtIn service = some handle
  extraBindings : ∃ added, later.extraBindings = earlier.extraBindings ++ added

theorem Extends.refl (environment : DomainEnvironment Iid Handle) :
    Extends environment environment :=
  ⟨fun _ _ hbound => hbound, [], (List.append_nil _).symm⟩

theorem Extends.trans {first second third : DomainEnvironment Iid Handle}
    (hfirst : Extends first second) (hsecond : Extends second third) : Extends first third := by
  refine ⟨fun service handle hbound =>
    hsecond.builtIn service handle (hfirst.builtIn service handle hbound), ?_⟩
  obtain ⟨added, hadded⟩ := hfirst.extraBindings
  obtain ⟨more, hmore⟩ := hsecond.extraBindings
  exact ⟨added ++ more, by rw [hmore, hadded, List.append_assoc]⟩

theorem BuiltIn.find?_all_eq_some_iff {service : BuiltIn} :
    BuiltIn.all.find? (fun service => service.name = name) = some service
      ↔ service.name = name := by
  constructor
  · intro hfound
    simpa using List.find?_some hfound
  · rintro rfl
    cases service <;> decide

theorem BuiltIn.find?_all_eq_none_iff :
    BuiltIn.all.find? (fun service => service.name = name) = none
      ↔ ∀ service : BuiltIn, service.name ≠ name := by
  constructor
  · intro hnone service hname
    rw [BuiltIn.find?_all_eq_some_iff.mpr hname] at hnone
    contradiction
  · intro hnames
    rw [List.find?_eq_none]
    intro service _
    simpa using hnames service

/-- The two ways in which a name is bound. -/
theorem processBinding_eq_ok_iff :
    processBinding iidOf environment name = .ok binding
      ↔ ValidName name
        ∧ ((∃ service : BuiltIn, service.name = name ∧ iidOf service = binding.1
              ∧ environment.builtIn service = some binding.2)
          ∨ (∀ service : BuiltIn, service.name ≠ name)
            ∧ ∃ entry, environment.extraBindings.find? (fun entry => entry.name = name)
                = some entry
              ∧ entry.primaryIid = binding.1 ∧ entry.handle = binding.2) := by
  obtain ⟨iid, handle⟩ := binding
  unfold processBinding
  by_cases hvalid : ValidName name
  · rw [if_neg (not_not.mpr hvalid), and_iff_right hvalid]
    cases hfind : BuiltIn.all.find? (fun service => service.name = name) with
    | some service =>
      have hnames : ∀ other : BuiltIn, other.name = name ↔ other = service := by
        intro other
        rw [← BuiltIn.find?_all_eq_some_iff, hfind, Option.some.injEq, eq_comm]
      simp only [hnames, exists_eq_left, ne_eq]
      cases environment.builtIn service <;> simp
    | none =>
      have hnames := BuiltIn.find?_all_eq_none_iff.mp hfind
      cases environment.extraBindings.find? (fun entry => entry.name = name) <;> simp [hnames]
  · simp [hvalid]

/-- A growing environment keeps every binding. -/
theorem processBinding_of_extends {earlier later : DomainEnvironment Iid Handle}
    (hextends : Extends earlier later)
    (hbound : processBinding iidOf earlier name = .ok binding) :
    processBinding iidOf later name = .ok binding := by
  rw [processBinding_eq_ok_iff] at hbound ⊢
  obtain ⟨hvalid, ⟨service, hname, hiid, hhandle⟩ | ⟨hnames, entry, hentry, hvalues⟩⟩ := hbound
  · exact ⟨hvalid, .inl ⟨service, hname, hiid, hextends.builtIn service _ hhandle⟩⟩
  · obtain ⟨added, hadded⟩ := hextends.extraBindings
    refine ⟨hvalid, .inr ⟨hnames, entry, ?_, hvalues⟩⟩
    rw [hadded, List.find?_append, hentry, Option.some_or]

/-- A built-in name that was free is bound. -/
theorem extends_of_builtIn (free : BuiltIn) {object : Option Handle}
    {updated : DomainEnvironment Iid Handle}
    (hbind : (if object.isNone ∨ (environment.builtIn free).isSome then none else some updated)
      = some bound)
    (hothers : ∀ service ≠ free, updated.builtIn service = environment.builtIn service)
    (hextra : updated.extraBindings = environment.extraBindings) : Extends environment bound := by
  obtain ⟨hfree, hbound⟩ := Option.ite_none_left_eq_some.mp hbind
  obtain rfl := Option.some.inj hbound
  refine ⟨fun service handle hhandle => ?_, [], by rw [hextra, List.append_nil]⟩
  rw [hothers, hhandle]
  rintro rfl
  exact hfree (.inr (hhandle ▸ rfl))

section

variable {primaryIid : Iid} {object : Option Handle}
  (hbind : dominit0EnvironmentBindNamed iidOf environment name primaryIid object = some bound)
include hbind

/-- What a successful binding checked, and the entry it added. -/
theorem bindNamed_eq_some :
    (∀ binding, processBinding iidOf environment (cString name) ≠ .ok binding)
      ∧ ∃ entry : BindingEntry Iid Handle, entry.name = cString name
        ∧ entry.primaryIid = primaryIid ∧ object = some entry.handle
        ∧ bound = { environment with extraBindings := environment.extraBindings ++ [entry] } := by
  unfold dominit0EnvironmentBindNamed at hbind
  cases object with
  | none => contradiction
  | some handle =>
    split_ifs at hbind with hname hfull hunbound
    exact ⟨fun binding hbound => hunbound (hbound ▸ rfl), _, rfl, rfl, rfl,
      (Option.some.inj hbind).symm⟩

theorem extends_of_bindNamed : Extends environment bound := by
  obtain ⟨-, entry, -, -, -, rfl⟩ := bindNamed_eq_some iidOf hbind
  exact ⟨fun service handle hhandle => by cases service <;> exact hhandle, [entry], rfl⟩

end

/-- A free name is bound, as long as the table has room. -/
theorem exists_bindNamed (environment : DomainEnvironment Iid Handle) (name : List UInt8)
    (hvalid : ValidName name) (hzero : 0 ∉ name)
    (hbuiltIn : ∀ service : BuiltIn, service.name ≠ name)
    (hfree : ∀ entry ∈ environment.extraBindings, entry.name ≠ name)
    (hroom : environment.extraBindings.length < extraBindingsMax) (primaryIid : Iid)
    (handle : Handle) :
    ∃ bound entry, dominit0EnvironmentBindNamed iidOf environment name primaryIid (some handle)
        = some bound
      ∧ entry.name = name ∧ bound.extraBindings = environment.extraBindings ++ [entry]
      ∧ processBinding iidOf bound name = .ok (primaryIid, handle) := by
  have hname : cString name = name := cString_eq_self hzero
  have hfind : environment.extraBindings.find? (fun entry => entry.name = name) = none := by
    simpa [List.find?_eq_none] using hfree
  have hunbound : ∀ binding, processBinding iidOf environment name ≠ .ok binding := by
    intro binding hbound
    obtain ⟨-, ⟨service, hservice, -⟩ | ⟨-, entry, hentry, -⟩⟩ :=
      (processBinding_eq_ok_iff iidOf).mp hbound
    · exact hbuiltIn service hservice
    · rw [hfind] at hentry
      cases hentry
  let entry : BindingEntry Iid Handle :=
    { name := name
      primaryIid := primaryIid
      handle := handle
      name_valid := hvalid
      name_cString := hzero }
  refine ⟨{ environment with extraBindings := environment.extraBindings ++ [entry] }, entry, ?_,
    rfl, rfl, ?_⟩
  · have hnotOk : ¬(processBinding iidOf environment name).isOk = true := by
      cases hbinding : processBinding iidOf environment name
        <;> simp_all [Except.isOk, Except.toBool]
    simp only [dominit0EnvironmentBindNamed, hname, hvalid, hroom.ne, hnotOk, ↓reduceDIte,
      ↓reduceIte]
    rfl
  · refine (processBinding_eq_ok_iff iidOf).mpr ⟨hvalid, .inr ⟨hbuiltIn, entry, ?_, rfl, rfl⟩⟩
    rw [List.find?_append, hfind, Option.none_or, List.find?_cons_of_pos (by simp [entry])]

/-- A publication binds the C string that its name starts with. -/
theorem publishService_eq_ok
    (hpublish : environmentPublishService iidOf environment name iid service = .ok bound) :
    ValidName name
      ∧ dominit0EnvironmentBindNamed iidOf environment (name ++ [0]) iid service
        = some bound := by
  unfold environmentPublishService at hpublish
  split_ifs at hpublish with hchecks
  refine ⟨not_not.mp (not_or.mp hchecks).2, ?_⟩
  split at hpublish
  · contradiction
  · rename_i hbind
    exact hbind.trans (congrArg some (Except.ok.inj hpublish))

theorem extends_of_publishService
    (hpublish : environmentPublishService iidOf environment name iid service = .ok bound) :
    Extends environment bound :=
  extends_of_bindNamed iidOf (publishService_eq_ok iidOf hpublish).2

/-- Every operation, successful or not, leaves an environment that extends the
one before. -/
theorem extends_perform (environment : DomainEnvironment Iid Handle)
    (operation : Operation Iid Handle) :
    Extends environment (perform iidOf environment operation).2 := by
  have hkept {attempt : Option (DomainEnvironment Iid Handle)}
      (hattempt : ∀ bound, attempt = some bound → Extends environment bound) :
      Extends environment (attempt.getD environment) := by
    cases attempt with
    | none => exact Extends.refl environment
    | some bound => exact hattempt bound rfl
  cases operation with
  | bindPageAllocator pageAllocator =>
    refine hkept fun _ hbind => extends_of_builtIn .memoryPages hbind ?_ rfl
    rintro (_ | _ | _ | _) hother <;> first | rfl | exact absurd rfl hother
  | bindFileStore fileStore =>
    refine hkept fun _ hbind => extends_of_builtIn .files hbind ?_ rfl
    rintro (_ | _ | _ | _) hother <;> first | rfl | exact absurd rfl hother
  | bindNamed name primaryIid object => exact hkept fun _ hbind => extends_of_bindNamed iidOf hbind
  | publishService name iid service =>
    refine hkept fun bound hbind => ?_
    cases hpublish : environmentPublishService iidOf environment name iid service with
    | error failure => simp [hpublish, Except.toOption] at hbind
    | ok published =>
      obtain rfl : published = bound := by simpa [hpublish, Except.toOption] using hbind
      exact extends_of_publishService iidOf hpublish

theorem extends_after (environment : DomainEnvironment Iid Handle)
    (operations : List (Operation Iid Handle)) :
    Extends environment (after iidOf environment operations) := by
  apply Runs.invariant_outputs _ (Extends.refl environment)
  intro state operation hextends
  exact hextends.trans (extends_perform iidOf state operation)

/-! ## The table -/

/-- The table stays within its array, and a name that stands in it twice is a built-in one. -/
structure SoundTable (environment : DomainEnvironment Iid Handle) : Prop where
  fits : environment.extraBindings.length ≤ extraBindingsMax
  distinct : environment.extraBindings.Pairwise fun earlier later =>
    earlier.name = later.name → ∃ service : BuiltIn, service.name = later.name

theorem SoundTable.bindNamed (hsound : SoundTable environment)
    (hbind : dominit0EnvironmentBindNamed iidOf environment name iid service = some bound) :
    SoundTable bound := by
  have hroom : environment.extraBindings.length ≠ extraBindingsMax := by
    intro hfull
    cases service <;> simp [dominit0EnvironmentBindNamed, hfull] at hbind
  obtain ⟨hunbound, entry, hentry, -, -, rfl⟩ := bindNamed_eq_some iidOf hbind
  refine ⟨?_, List.pairwise_append.mpr ⟨hsound.distinct, List.pairwise_singleton _ _, ?_⟩⟩
  · rw [List.length_append]
    exact Nat.lt_of_le_of_ne hsound.fits hroom
  · intro earlier hearlier later hlater hname
    obtain rfl := List.mem_singleton.mp hlater
    by_contra hnames
    -- the earlier entry would have been found under the name
    cases hfind : environment.extraBindings.find? (fun found => found.name = later.name) with
    | none => exact List.find?_eq_none.mp hfind earlier hearlier (decide_eq_true hname)
    | some found =>
      exact hunbound (_, _) ((processBinding_eq_ok_iff iidOf).mpr ⟨hentry ▸ later.name_valid,
        .inr ⟨by simpa [hentry] using hnames, found, hentry ▸ hfind, rfl, rfl⟩⟩)

theorem SoundTable.perform (hsound : SoundTable environment) (operation : Operation Iid Handle) :
    SoundTable (perform iidOf environment operation).2 := by
  cases operation <;> dsimp only [Environment.perform, dominit0EnvironmentBindPageAllocator,
    dominit0EnvironmentBindFileStore]
  case bindNamed name primaryIid object =>
    cases hbind : dominit0EnvironmentBindNamed iidOf environment name primaryIid object with
    | none => exact hsound
    | some bound => exact hsound.bindNamed iidOf hbind
  case publishService name iid service =>
    cases hpublish : environmentPublishService iidOf environment name iid service with
    | error failure => exact hsound
    | ok bound => exact hsound.bindNamed iidOf (publishService_eq_ok iidOf hpublish).2
  all_goals split_ifs <;> exact ⟨hsound.fits, hsound.distinct⟩

/-- In every environment that a run reaches, the table is sound. -/
theorem tables_sound (logger domainConfig : Handle) (operations : List (Operation Iid Handle)) :
    SoundTable (after iidOf (dominit0EnvironmentInitialize logger domainConfig) operations) :=
  Runs.invariant_outputs (fun _ operation hsound => hsound.perform iidOf operation)
    ⟨Nat.zero_le _, .nil⟩ operations

/-! ## Publication -/

theorem processResolve_eq_ok_iff :
    processResolve iidOf environment name = .ok handle
      ↔ ∃ iid, processBinding iidOf environment name = .ok (iid, handle) := by
  unfold processResolve
  cases processBinding iidOf environment name <;> simp [Except.map, Prod.ext_iff]

/-- A publication binds the C string in its name, unless that is a built-in name. -/
theorem processBinding_of_publishService
    (hpublish : environmentPublishService iidOf environment name iid (some handle) = .ok bound)
    (hbuiltIn : ∀ service : BuiltIn, service.name ≠ cString name) :
    processBinding iidOf bound (cString name) = .ok (iid, handle) := by
  obtain ⟨-, hbind⟩ := publishService_eq_ok iidOf hpublish
  obtain ⟨hunbound, entry, hname, hiid, hhandle, rfl⟩ := bindNamed_eq_some iidOf hbind
  rw [cString_append_terminator] at hunbound hname
  have hvalid : ValidName (cString name) := hname ▸ entry.name_valid
  have hfree : environment.extraBindings.find? (fun entry => entry.name = cString name)
      = none :=
    Option.eq_none_iff_forall_ne_some.mpr fun found hfound =>
      hunbound (found.primaryIid, found.handle) ((processBinding_eq_ok_iff iidOf).mpr
        ⟨hvalid, .inr ⟨hbuiltIn, found, hfound, rfl, rfl⟩⟩)
  refine (processBinding_eq_ok_iff iidOf).mpr
    ⟨hvalid, .inr ⟨hbuiltIn, entry, ?_, hiid, (Option.some.inj hhandle).symm⟩⟩
  rw [List.find?_append, hfree, Option.none_or, List.find?_cons_of_pos (by simpa using hname)]

/-- Only names without zero bytes are bound. -/
theorem zero_not_mem_of_processBinding
    (hbound : processBinding iidOf environment name = .ok binding) : 0 ∉ name := by
  obtain ⟨-, ⟨service, rfl, -, -⟩ | ⟨-, entry, hentry, -, -⟩⟩ :=
    (processBinding_eq_ok_iff iidOf).mp hbound
  · cases service <;> decide
  · have hname : entry.name = name := by simpa using List.find?_some hentry
    exact hname ▸ entry.name_cString

/-- A built-in name that is bound after its publication was bound before, and was refused. -/
theorem not_builtIn_of_published
    (hpublish : environmentPublishService iidOf environment name iid service = .ok bound)
    (hbound : processBinding iidOf bound (cString name) = .ok binding) (service : BuiltIn) :
    service.name ≠ cString name := by
  intro hname
  obtain ⟨-, hbind⟩ := publishService_eq_ok iidOf hpublish
  obtain ⟨hunbound, entry, -, -, -, rfl⟩ := bindNamed_eq_some iidOf hbind
  rw [cString_append_terminator] at hunbound
  obtain ⟨hvalid, ⟨other, hother, hiid, hhandle⟩ | ⟨hnames, -⟩⟩ :=
    (processBinding_eq_ok_iff iidOf).mp hbound
  · refine hunbound binding ((processBinding_eq_ok_iff iidOf).mpr
      ⟨hvalid, .inl ⟨other, hother, hiid, ?_⟩⟩)
    rw [← hhandle]
    cases other <;> rfl
  · exact hnames service hname

/-- A publication whose name resolves afterwards had no zero byte in its name and
did not use a built-in name. -/
theorem name_of_resolve_published
    (hpublish : environmentPublishService iidOf environment name iid service = .ok bound)
    (hresolve : processResolve iidOf bound name = .ok handle) :
    0 ∉ name ∧ ∀ service : BuiltIn, service.name ≠ name := by
  obtain ⟨primaryIid, hbound⟩ := (processResolve_eq_ok_iff iidOf).mp hresolve
  have hname := zero_not_mem_of_processBinding iidOf hbound
  have hsame := cString_eq_self hname
  rw [← hsame] at hbound
  exact ⟨hname, hsame ▸ not_builtIn_of_published iidOf hpublish hbound⟩

/-- A listing of built-in names shows these names only, and all of them are bound. -/
theorem listBuiltIn_eq_ok {services : List BuiltIn} {listed : List (List UInt8 × Iid)}
    (hlist : listBuiltIn iidOf environment services = .ok listed) :
    (∀ item ∈ listed, ∃ service : BuiltIn, service ∈ services ∧ service.name = item.1)
      ∧ ∀ service ∈ services, ∃ binding,
        processBinding iidOf environment service.name = .ok binding := by
  induction services generalizing listed with
  | nil =>
    obtain rfl := Except.ok.inj hlist
    exact ⟨List.forall_mem_nil _, List.forall_mem_nil _⟩
  | cons first rest ih =>
    unfold listBuiltIn at hlist
    split at hlist
    · contradiction
    rename_i binding hfirst
    obtain ⟨more, hrest, hmore⟩ := bind_eq_ok.mp hlist
    obtain rfl := Except.ok.inj hmore
    obtain ⟨hnames, hbound⟩ := ih hrest
    refine ⟨List.forall_mem_cons.mpr ⟨⟨first, List.mem_cons_self, rfl⟩, ?_⟩,
      List.forall_mem_cons.mpr ⟨⟨binding, hfirst⟩, hbound⟩⟩
    intro item hitem
    obtain ⟨service, hservice, hname⟩ := hnames item hitem
    exact ⟨service, List.mem_cons_of_mem _ hservice, hname⟩

/-- Whatever is listed resolves: the listing fails while a built-in name is not
bound, and the name of an entry of the table finds that entry or an earlier one. -/
theorem resolve_of_processListBindings {listed : List (List UInt8 × Iid)}
    (hlist : processListBindings iidOf environment = .ok listed) :
    ∀ item ∈ listed, ∃ handle, processResolve iidOf environment item.1 = .ok handle := by
  obtain ⟨names, hbuiltIn, hnames⟩ := bind_eq_ok.mp hlist
  obtain rfl := Except.ok.inj hnames
  obtain ⟨hnames, hbound⟩ := listBuiltIn_eq_ok iidOf hbuiltIn
  have hresolved : ∀ service : BuiltIn, ∃ handle,
      processResolve iidOf environment service.name = .ok handle := by
    intro service
    obtain ⟨binding, hbinding⟩ := hbound service (by cases service <;> decide)
    exact ⟨binding.2, (processResolve_eq_ok_iff iidOf).mpr ⟨binding.1, hbinding⟩⟩
  refine List.forall_mem_append.mpr ⟨?_, List.forall_mem_map.mpr ?_⟩
  · intro item hitem
    obtain ⟨service, -, hname⟩ := hnames item hitem
    exact hname ▸ hresolved service
  · intro entry hentry
    by_cases hname : ∃ service : BuiltIn, service.name = entry.name
    · obtain ⟨service, hname⟩ := hname
      exact hname ▸ hresolved service
    have hfound : (environment.extraBindings.find?
        (fun other => other.name = entry.name)).isSome := by
      rw [List.find?_isSome]
      exact ⟨entry, hentry, by simp⟩
    obtain ⟨found, hfound⟩ := Option.isSome_iff_exists.mp hfound
    refine ⟨found.handle, (processResolve_eq_ok_iff iidOf).mpr ⟨found.primaryIid, ?_⟩⟩
    exact (processBinding_eq_ok_iff iidOf).mpr
      ⟨entry.name_valid, .inr ⟨not_exists.mp hname, found, hfound, rfl, rfl⟩⟩

end Services

section Lookups

variable {Iid Handle : Type} [DecidableEq Iid] (iidOf : BuiltIn → Iid)
  {environment : DomainEnvironment Iid Handle} {iid : Iid} {handle : Handle}

/-! ## Lookups under an interface -/

/-- A binding is handed out only under its primary interface. -/
def checkInterface (iid : Iid) (binding : Iid × Handle) : Except FacetError Handle :=
  if binding.1 = iid then .ok binding.2 else .error .noInterface

variable (environment)

def processResolveAs (name : List UInt8) (iid : Iid) : Except FacetError Handle := do
  checkInterface iid (← processBinding iidOf environment name)

def environmentResolveService (name : List UInt8) (iid : Iid) : Except FacetError Handle :=
  if ¬ ValidName name then .error .invalidArgument
  else do checkInterface iid (← dominit0EnvironmentResolveNamed iidOf environment name)

/-- The three lookups of a client. -/
inductive Lookup (Iid : Type)
  | resolveService (iid : Iid)
  | resolve
  | resolveAs (iid : Iid)

def Lookup.find (name : List UInt8) : Lookup Iid → Except FacetError Handle
  | .resolveService iid => environmentResolveService iidOf environment name iid
  | .resolve => processResolve iidOf environment name
  | .resolveAs iid => processResolveAs iidOf environment name iid

variable {environment}

/-- The three lookups of one name under one interface. -/
def lookups (iid : Iid) : List (Lookup Iid) :=
  [.resolveService iid, .resolve, .resolveAs iid]

theorem processResolveAs_eq_ok_iff :
    processResolveAs iidOf environment name iid = .ok handle
      ↔ processBinding iidOf environment name = .ok (iid, handle) := by
  unfold processResolveAs
  cases processBinding iidOf environment name with
  | error failure => simp [bind, Except.bind]
  | ok binding =>
    obtain ⟨primary, object⟩ := binding
    by_cases hiid : primary = iid <;> simp [bind, Except.bind, checkInterface, hiid]

theorem environmentResolveService_eq_ok_iff :
    environmentResolveService iidOf environment name iid = .ok handle
      ↔ ValidName name ∧ processBinding iidOf environment (cString name) = .ok (iid, handle) := by
  unfold environmentResolveService
  by_cases hvalid : ValidName name
  · rw [if_neg (not_not.mpr hvalid), and_iff_right hvalid]
    exact processResolveAs_eq_ok_iff iidOf
  · simp [hvalid]

/-- Every lookup reads one binding, of its name or of the C string in it. -/
theorem find_of_extends {earlier later : DomainEnvironment Iid Handle}
    (hextends : Extends earlier later) (lookup : Lookup Iid)
    (hfind : lookup.find iidOf earlier name = .ok handle) :
    lookup.find iidOf later name = .ok handle := by
  cases lookup with
  | resolveService iid =>
    obtain ⟨hvalid, hbound⟩ := (environmentResolveService_eq_ok_iff iidOf).mp hfind
    exact (environmentResolveService_eq_ok_iff iidOf).mpr
      ⟨hvalid, processBinding_of_extends iidOf hextends hbound⟩
  | resolve =>
    obtain ⟨iid, hbound⟩ := (processResolve_eq_ok_iff iidOf).mp hfind
    exact (processResolve_eq_ok_iff iidOf).mpr
      ⟨iid, processBinding_of_extends iidOf hextends hbound⟩
  | resolveAs iid =>
    have hbound := (processResolveAs_eq_ok_iff iidOf).mp hfind
    exact (processResolveAs_eq_ok_iff iidOf).mpr
      (processBinding_of_extends iidOf hextends hbound)

/-- For a name without zero bytes the three lookups read one binding. -/
theorem find_of_processBinding (hname : 0 ∉ name)
    (hbound : processBinding iidOf environment name = .ok (iid, handle)) {lookup : Lookup Iid}
    (hlookup : lookup ∈ lookups iid) :
    lookup.find iidOf environment name = .ok handle := by
  simp only [lookups, List.mem_cons, List.not_mem_nil, or_false] at hlookup
  rcases hlookup with rfl | rfl | rfl
  · apply (environmentResolveService_eq_ok_iff iidOf).mpr
    rw [cString_eq_self hname]
    exact ⟨((processBinding_eq_ok_iff iidOf).mp hbound).1, hbound⟩
  · exact (processResolve_eq_ok_iff iidOf).mpr ⟨iid, hbound⟩
  · exact (processResolveAs_eq_ok_iff iidOf).mpr hbound

/-- After a publication that succeeded, the three lookups find its handle in every
later state exactly when the name has no zero byte and is not built in.  Every
name that resolved before resolves as before, and every listed name resolves. -/
theorem published_found_iff (environment bound : DomainEnvironment Iid Handle)
    (name : List UInt8) (iid : Iid) (handle : Handle)
    (hpublish : environmentPublishService iidOf environment name iid (some handle)
      = .ok bound) :
    ((∀ operations, ∀ lookup ∈ lookups iid,
        lookup.find iidOf (after iidOf bound operations) name = .ok handle)
      ↔ 0 ∉ name ∧ ∀ service : BuiltIn, service.name ≠ name)
    ∧ (∀ operations (lookup : Lookup Iid) other found,
        lookup.find iidOf environment other = .ok found →
        lookup.find iidOf (after iidOf bound operations) other = .ok found)
    ∧ ∀ operations listed,
        processListBindings iidOf (after iidOf bound operations) = .ok listed →
        ∀ item ∈ listed, ∃ found,
          processResolve iidOf (after iidOf bound operations) item.1 = .ok found := by
  have hextends := extends_of_publishService iidOf hpublish
  refine ⟨⟨?_, ?_⟩, ?_, ?_⟩
  · intro hfound
    have hresolve : processResolve iidOf bound name = .ok handle :=
      hfound [] .resolve (by simp [lookups])
    exact name_of_resolve_published iidOf hpublish hresolve
  · rintro ⟨hname, hbuiltIn⟩ operations lookup hlookup
    have hsame := cString_eq_self hname
    have hbound := processBinding_of_publishService iidOf hpublish (hsame.symm ▸ hbuiltIn)
    rw [hsame] at hbound
    exact find_of_processBinding iidOf hname
      (processBinding_of_extends iidOf (extends_after iidOf bound operations) hbound) hlookup
  · intro operations lookup other found hfind
    exact find_of_extends iidOf (hextends.trans (extends_after iidOf bound operations)) lookup
      hfind
  · intro operations listed hlist
    exact resolve_of_processListBindings iidOf hlist

end Lookups

/-! ## Two publications -/

/-- A domain environment right after its initialisation, with handles and
interfaces numbered. -/
def sampleEnvironment : DomainEnvironment ℕ ℕ := dominit0EnvironmentInitialize 1 2

def sampleIid (service : BuiltIn) : ℕ := service.ctorIdx

/-- The environment after a service was published as `clock`. -/
def clockEnvironment : DomainEnvironment ℕ ℕ :=
  ((environmentPublishService sampleIid sampleEnvironment (ascii "clock") 9 (some 7)).toOption).getD
    sampleEnvironment

theorem published_found_iff_clock :
    Lookup.resolve.find sampleIid (after sampleIid clockEnvironment []) (ascii "clock")
      = .ok 7 := by
  refine ((published_found_iff sampleIid sampleEnvironment clockEnvironment (ascii "clock") 9 7
    ?_).1).mpr ⟨by decide, ?_⟩ [] .resolve (by simp [lookups])
  · rfl
  · intro service
    cases service <;> decide

/-- Before the file store is bound, `files` can be published, and no lookup finds
it; a name with a zero byte is bound under its first part, where `resolve` does
not find it. -/
theorem published_not_found :
    (∃ bound, environmentPublishService sampleIid sampleEnvironment (ascii "files") 9 (some 7)
        = .ok bound
      ∧ ∀ lookup ∈ lookups 9, lookup.find sampleIid bound (ascii "files")
        = .error .invalidHandle)
    ∧ ∃ bound, environmentPublishService sampleIid sampleEnvironment [97, 0, 98] 9 (some 7)
        = .ok bound
      ∧ processResolve sampleIid bound [97, 0, 98] = .error .noInterface := by
  refine ⟨⟨_, rfl, ?_⟩, _, rfl, rfl⟩
  intro lookup hlookup
  simp only [lookups, List.mem_cons, List.not_mem_nil, or_false] at hlookup
  rcases hlookup with rfl | rfl | rfl <;> rfl

end FacetOS.Environment
