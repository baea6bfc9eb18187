import FacetOS.Process.Launch

/-!
# What a launch leaves

A launch that fails changes neither the list of processes nor the domain.  A launch
that succeeds adds one process at the end of the list, and everything that the later
results need of that process is a function of the request: the identity, the names
it can resolve, the store that its files, its root and its current directory belong
to, and the data for its restart.
-/

namespace FacetOS.Process

open FileView Initrd Attempts Posix Config Auth Rpc
open Environment (ValidName dominit0EnvironmentResolveNamed)

variable {Iid Handle : Type}

/-! ## Names -/

def boundNames (bindings : List (ProcessBinding Handle)) : List (List UInt8) :=
  bindings.map ProcessBinding.name

variable {request : LaunchRequest Handle} {domain : CurrentDomain Iid Handle}
  {bindings : List (ProcessBinding Handle)} {name path : List UInt8} {handle : NodeHandle}
  {result : List (ProcessBinding Handle)}

theorem bind_eq_some {object : ServiceObject Handle}
    (hbind : bind bindings name object = some result) :
    result = bindings ++ [⟨name, object⟩] := by
  simp only [Process.bind, Option.ite_none_left_eq_some, Option.some.injEq] at hbind
  exact hbind.2.2.symm

theorem bindIf_eq_some {condition : Bool}
    {object : ServiceObject Handle} (hbind : bindIf condition bindings name object = some result) :
    result = bindings ++ if condition then [⟨name, object⟩] else [] := by
  cases condition with
  | false => simpa [bindIf, eq_comm] using hbind
  | true => simpa using bind_eq_some hbind

/-- Those of the names that the domain's environment resolves. -/
def resolvable (domain : CurrentDomain Iid Handle) (names : List (List UInt8)) :
    List (List UInt8) :=
  names.filter fun name =>
    (dominit0EnvironmentResolveNamed domain.interfaces domain.environment name).isOk

theorem delegate_eq_some {names : List (List UInt8)}
    (hdelegate : delegate domain.interfaces domain.environment bindings names = some result) :
    boundNames result = boundNames bindings ++ resolvable domain names := by
  induction names generalizing bindings with
  | nil =>
    obtain rfl : bindings = result := Option.some.inj hdelegate
    exact (List.append_nil _).symm
  | cons name names ih =>
    unfold delegate at hdelegate
    rw [List.foldlM_cons] at hdelegate
    obtain ⟨middle, hfirst, hrest⟩ := Option.bind_eq_some_iff.mp hdelegate
    rw [ih hrest, resolvable, resolvable, List.filter_cons]
    split at hfirst <;> rename_i hnamed
    · obtain rfl := Option.some.inj hfirst
      simp [hnamed, Except.isOk, Except.toBool]
    · simp [bind_eq_some hfirst, boundNames, hnamed, Except.isOk, Except.toBool]

theorem findBinding_isSome_iff :
    (findBinding bindings name).isSome ↔ ValidName name ∧ name ∈ boundNames bindings := by
  by_cases hvalid : ValidName name <;> simp [findBinding, boundNames, hvalid, List.find?_isSome]

/-- The process can resolve the name. -/
def Resolves (environment : ProcessEnvironment Handle) (name : List UInt8) : Prop :=
  ∃ object, resolve environment name = .ok object

theorem resolves_iff {environment : ProcessEnvironment Handle} :
    Resolves environment name ↔ ValidName name ∧ name ∈ boundNames environment.bindings := by
  rw [← findBinding_isSome_iff]
  unfold Resolves resolve
  by_cases hvalid : ValidName name
  · cases findBinding environment.bindings name <;> simp [hvalid]
  · simp [hvalid, findBinding]

theorem boundNames_rebindCwd (bindings : List (ProcessBinding Handle))
    (directory : DirectoryHandle) :
    boundNames (rebindCwd bindings directory) = boundNames bindings := by
  rw [boundNames, rebindCwd, List.map_map]
  refine List.map_congr_left fun binding _ => ?_
  rw [Function.comp_apply]
  split <;> rfl

/-! ## Environments under construction -/

/-- What stays fixed while an environment is completed, and the names it has so far. -/
structure Shape (names : List (List UInt8)) (credentials : Credentials) (native : Bool)
    (store : ℕ) (environment : ProcessEnvironment Handle) : Prop where
  cwd : ∃ handle, environment.ownedCwd = .node handle ∧ handle.store = store
  files : ⟨ascii "files", .files store⟩ ∈ environment.bindings
  names : boundNames environment.bindings = names
  credentials : environment.credentials = credentials
  native : environment.nativeCapabilities = native
  store : environment.credentialFiles = store

variable {names : List (List UInt8)} {credentials : Credentials} {native : Bool} {store : ℕ}
  {environment result : ProcessEnvironment Handle} {before after : Stores}

/-- The first names of a process. -/
def createdNames (domain : CurrentDomain Iid Handle) (session : Option SessionClaims)
    (bootstrapAuthority nativeCapabilities : Bool) : List (List UInt8) :=
  resolvable domain (if nativeCapabilities then delegatedNames else [])
    ++ resolvable domain (if bootstrapAuthority ∧ nativeCapabilities then bootstrapDelegatedNames
      else [])
    ++ [ascii "files"] ++ (if session.isSome ∧ nativeCapabilities then [ascii "session"] else [])
    ++ [ascii "cwd"]

theorem storeOpenIn_eq_ok {index : ℕ} {directory : Bool}
    (hrun : storeOpenIn index path directory before = (.ok handle, after)) :
    handle.store = index := by
  obtain ⟨opened, -, -, hstore, -⟩ := inStore_eq_ok hrun
  exact hstore

theorem openCwd_eq_ok {cwd : Option DirectoryHandle}
    (hrun : openCwd store cwd before = (.ok handle, after)) : handle.store = store := by
  cases cwd with
  | none => exact storeOpenIn_eq_ok (orFail_eq_ok.mp hrun)
  | some directory =>
    obtain ⟨path, stores, -, hopen⟩ := bind_eq_ok.mp hrun
    exact storeOpenIn_eq_ok (orFail_eq_ok.mp hopen)

@[simp]
theorem moves_openCwd (store : ℕ) (cwd : Option DirectoryHandle) :
    Moves Grows (openCwd store cwd) := by
  cases cwd with
  | none => exact moves_storeOpenIn store _ true
  | some directory => exact (moves_query _).bind (by simp)

@[simp]
theorem boundNames_append (bindings added : List (ProcessBinding Handle)) :
    boundNames (bindings ++ added) = boundNames bindings ++ boundNames added :=
  List.map_append

theorem boundNames_ite (condition : Prop) [Decidable condition] (name : List UInt8)
    (object : ServiceObject Handle) :
    boundNames (if condition then [⟨name, object⟩] else []) = if condition then [name] else [] := by
  split <;> rfl

theorem sessionBinding_eq_some {session : Option SessionClaims}
    {services : List (ProcessBinding Handle)} (hbind : (match session with
      | none => some bindings
      | some claims => bindIf native bindings (ascii "session") (.session claims))
        = some services) :
    boundNames services
        = boundNames bindings ++ (if session.isSome ∧ native then [ascii "session"] else [])
      ∧ ∀ binding ∈ bindings, binding ∈ services := by
  cases session with
  | none =>
    obtain rfl := Option.some.inj hbind
    simp
  | some claims =>
    rw [bindIf_eq_some hbind, boundNames_append, boundNames_ite]
    exact ⟨by simp, fun binding hbinding => List.mem_append_left _ hbinding⟩

theorem create_eq_ok {session : Option SessionClaims} {bootstrapAuthority : Bool}
    {sysvEnvironment : Option (List (List UInt8))} {cwd : Option DirectoryHandle}
    {identitySource : Option (ProcessEnvironment Handle)}
    (hrun : dominit0ProcessEnvironmentCreate domain session bootstrapAuthority native
      sysvEnvironment cwd identitySource before = (.ok result, after)) :
    ∃ identity, createdIdentity session identitySource = some identity
      ∧ Shape (createdNames domain session bootstrapAuthority native) identity.credentials native
        result.credentialFiles result
      ∧ result.posixView = none ∧ result.posixNamespaceRoot = none
      ∧ ∃ files, after[result.credentialFiles]? = some files
        ∧ files.credentials = identity.credentials := by
  unfold dominit0ProcessEnvironmentCreate at hrun
  simp only [bind_eq_ok, ofOption_eq_ok] at hrun
  obtain ⟨identity, _, ⟨hidentity, rfl⟩, sysv, _, ⟨-, rfl⟩, delegated, _, ⟨hdelegated, rfl⟩,
    bootstrap, _, ⟨hbootstrap, rfl⟩, store, stores, hstore, withFiles, _, ⟨hfiles, rfl⟩,
    withSession, _, ⟨hsession, rfl⟩, directory, _, hdirectory, services, _, ⟨hcwd, rfl⟩, hpure⟩ :=
      hrun
  obtain ⟨rfl, rfl⟩ := pure_eq_ok.mp hpure
  obtain ⟨hnames, hkept⟩ := sessionBinding_eq_some hsession
  refine ⟨identity, hidentity, ⟨⟨directory, rfl, openCwd_eq_ok hdirectory⟩, ?_, ?_, rfl, rfl, rfl⟩,
    rfl, rfl, ?_⟩
  · change _ ∈ services
    rw [bind_eq_some hcwd]
    apply List.mem_append_left
    apply hkept
    rw [bind_eq_some hfiles]
    exact List.mem_concat_self
  · change boundNames services = _
    rw [bind_eq_some hcwd, boundNames_append, hnames, bind_eq_some hfiles, boundNames_append,
      delegate_eq_some hbootstrap, delegate_eq_some hdelegated]
    rfl
  · obtain ⟨files, hfound, hcredentials⟩ := dominit0CredentialFileStoreCreate_eq_ok hstore
    obtain ⟨later, hlater, hextends⟩ :=
      (moves_openCwd store cwd).of_eq hdirectory store files hfound
    exact ⟨later, hlater, hextends.credentials.trans hcredentials⟩

/-! ## Completing an environment -/

section

variable (hshape : Shape names credentials native store environment)
include hshape

theorem Shape.setVariable {key value : List UInt8}
    (hset : setVariable environment key value = some result) :
    Shape names credentials native store result := by
  obtain ⟨sysv, -, hresult⟩ := Option.bind_eq_some_iff.mp hset
  obtain rfl := Option.some.inj hresult
  exact { hshape with }

omit hshape in
theorem setCwd_eq_ok {directory : DirectoryHandle}
    (hset : setCwd environment directory = .ok result) :
    result = { environment with
      ownedCwd := directory
      bindings := rebindCwd environment.bindings directory } := by
  unfold setCwd at hset
  split at hset
  · cases hset
  · exact (Except.ok.inj hset).symm

theorem Shape.setCwd
    (hhandle : handle.store = store) (hset : setCwd environment (.node handle) = .ok result) :
    Shape names credentials native store result := by
  obtain rfl := setCwd_eq_ok hset
  refine ⟨⟨handle, rfl, hhandle⟩, ?_, ?_, hshape.credentials, hshape.native, hshape.store⟩
  · exact List.mem_map.mpr ⟨_, hshape.files, if_neg (show ascii "files" ≠ ascii "cwd" by decide)⟩
  · exact (boundNames_rebindCwd _ _).trans hshape.names

omit hshape in
/-- What happened to the root of the namespace. -/
theorem setPosixNamespaceRoot_eq_some
    (hset : setPosixNamespaceRoot environment path = some result) :
    result = { environment with posixNamespaceRoot := some path } :=
  (Option.some.inj (Option.ite_none_left_eq_some.mp hset).2).symm

theorem Shape.startAtRoot (hrun : startAtRoot request environment before = (.ok result, after)) :
    Shape names credentials native store result ∧ result.posixView = environment.posixView := by
  unfold Process.startAtRoot at hrun
  cases hroot : request.posixRoot with
  | none =>
    rw [hroot] at hrun
    obtain ⟨rfl, rfl⟩ := pure_eq_ok.mp hrun
    exact ⟨hshape, rfl⟩
  | some path =>
    simp only [hroot] at hrun
    split at hrun
    · simp only [setPosixRoot, bind_eq_ok, ofOption_eq_ok, orFail_eq_ok] at hrun
      obtain ⟨rooted, _, ⟨hrooted, rfl⟩, root, stores, hopen, hset⟩ := hrun
      obtain rfl := setPosixNamespaceRoot_eq_some hrooted
      have hstart : Shape names credentials native store
          { environment with posixNamespaceRoot := some (cString path) } := { hshape with }
      have hstore : root.store = store := (storeOpenIn_eq_ok hopen).trans hshape.store
      cases hchanged : Process.setCwd
          { environment with posixNamespaceRoot := some (cString path) } (.node root) with
      | error failure => simp [hchanged, ofOption_eq_ok] at hset
      | ok changed =>
        simp only [hchanged] at hset
        obtain ⟨rfl, rfl⟩ := pure_eq_ok.mp hset
        exact ⟨hstart.setCwd hstore hchanged, by rw [setCwd_eq_ok hchanged]⟩
    · obtain ⟨rfl, rfl⟩ := pure_eq_ok.mp hrun
      exact ⟨hshape, rfl⟩

/-- The view of a process, once it has one. -/
structure ViewIn (store : ℕ) (admin controlled : Bool) (view : PosixView) : Prop where
  cwd : view.cwdHandle.store = store
  root : view.rootHandle.store = store
  admin : view.admin = admin
  controlled : view.controlled = controlled

theorem createView_eq_ok {view : PosixView}
    (hrun : createView environment before = (.ok view, after)) : ViewIn store false false view := by
  obtain ⟨handle, hcwd, hstore⟩ := hshape.cwd
  simp only [createView, bind_eq_ok, ofOption_eq_ok, query_eq_ok, hcwd, DirectoryHandle.node?]
    at hrun
  obtain ⟨found, _, ⟨hfound, rfl⟩, physical, _, ⟨-, rfl⟩, texts, _, ⟨-, rfl⟩, rooted, stores,
    hrooted, hsync, rfl⟩ := hrun
  obtain rfl := Option.some.inj hfound
  have hview : ViewIn store false false rooted := by
    unfold rootedView at hrooted
    cases hpath : environment.posixNamespaceRoot with
    | none =>
      simp only [hpath] at hrooted
      obtain ⟨rfl, rfl⟩ := pure_eq_ok.mp hrooted
      exact ⟨hstore, hstore, rfl, rfl⟩
    | some path =>
      simp only [hpath, bind_eq_ok, ofOption_eq_ok, orFail_eq_ok, query_eq_ok] at hrooted
      obtain ⟨root, middle, hopen, answer, _, -, hset, rfl⟩ := hrooted
      have hroot : root.store = store := (storeOpenIn_eq_ok hopen).trans hshape.store
      unfold dominit0PosixViewSetRoot at hset
      split at hset
      · contradiction
      · rw [← Option.some.inj hset]
        exact ⟨hstore, hroot, rfl, rfl⟩
  rw [dominit0PosixViewBindCwdSync, Option.ite_none_left_eq_some] at hsync
  rw [← Option.some.inj hsync.2]
  exact { hview with }

end

/-- The names that a terminal adds. -/
def terminalNames (native root : Bool) : List (List UInt8) :=
  (if native && !root then [] else [ascii "posix"])
    ++ if native then [ascii "terminal.control", ascii "stdin", ascii "stdout", ascii "stderr"]
      else []

/-- The names, the views and the root of an environment that has been completed so far. -/
structure Completed (names : List (List UInt8)) (credentials : Credentials) (native : Bool)
    (store : ℕ) (admin controlled : Bool) (root : Option (List UInt8))
    (environment : ProcessEnvironment Handle) : Prop where
  shape : Shape names credentials native store environment
  view : ∀ view, environment.posixView = some view → ViewIn store admin controlled view
  attached : root.isSome → environment.posixView.isSome
  root : environment.posixNamespaceRoot = root

variable {admin controlled : Bool} {root : Option (List UInt8)}

section

variable (hcompleted : Completed names credentials native store admin controlled root environment)
include hcompleted

/-- Names are added, and the view changes at most in ways that do not matter here. -/
theorem Completed.grow (added : List (ProcessBinding Handle)) (view : Option PosixView)
    (hview : ∀ later, view = some later → ViewIn store admin controlled later)
    (hexists : environment.posixView.isSome → view.isSome) :
    Completed (names ++ boundNames added) credentials native store admin controlled root
      { environment with bindings := environment.bindings ++ added, posixView := view } := by
  obtain ⟨hshape, -, hattached, hroot⟩ := hcompleted
  refine ⟨⟨hshape.cwd, List.mem_append_left _ hshape.files, ?_, hshape.credentials, hshape.native,
    hshape.store⟩, hview, fun hsome => hexists (hattached hsome), hroot⟩
  change boundNames (environment.bindings ++ added) = _
  rw [boundNames_append, hshape.names]

theorem Completed.bind (added : List (ProcessBinding Handle)) :
    Completed (names ++ boundNames added) credentials native store admin controlled root
      { environment with bindings := environment.bindings ++ added } :=
  hcompleted.grow added _ hcompleted.view id

theorem bindLifecycle_eq_some (hbind : bindLifecycle environment = some result) :
    Completed (names ++ if native then [ascii "process.lifecycle"] else []) credentials native store
      admin controlled root result := by
  obtain rfl := hcompleted.shape.native
  rw [← boundNames_ite (environment.nativeCapabilities = true) _
    (.lifecycle : ServiceObject Handle)]
  unfold bindLifecycle at hbind
  cases hview : environment.posixView with
  | none =>
    simp only [hview] at hbind
    split at hbind
    · rename_i hnative
      obtain ⟨services, hservices, hresult⟩ := Option.bind_eq_some_iff.mp hbind
      obtain rfl := Option.some.inj hresult
      rw [bind_eq_some hservices, if_pos hnative]
      exact hcompleted.grow _ none (by simp) (by simp [hview])
    · contradiction
  | some view =>
    simp only [hview] at hbind
    obtain ⟨later, hlater, hrest⟩ := Option.bind_eq_some_iff.mp hbind
    obtain ⟨services, hservices, hresult⟩ := Option.bind_eq_some_iff.mp hrest
    obtain rfl := Option.some.inj hresult
    rw [bindIf_eq_some hservices]
    rw [dominit0PosixViewBindLifecycle, Option.ite_none_left_eq_some] at hlater
    obtain rfl := Option.some.inj hlater.2
    refine hcompleted.grow _ _ ?_ (fun _ => rfl)
    rintro _ ⟨⟩
    exact { hcompleted.view view hview with }

theorem bindPageAllocator_eq_some (hbind : bindPageAllocator environment = some result) :
    Completed (names ++ if native then [ascii "memory.pages"] else []) credentials native store
      admin controlled root result := by
  obtain rfl := hcompleted.shape.native
  rw [← boundNames_ite (environment.nativeCapabilities = true) _
    (.pageAllocator : ServiceObject Handle)]
  unfold bindPageAllocator at hbind
  split at hbind
  · rename_i hnative
    obtain ⟨services, hservices, hresult⟩ := Option.bind_eq_some_iff.mp hbind
    obtain rfl := Option.some.inj hresult
    rw [bind_eq_some hservices, if_pos hnative]
    exact hcompleted.bind _
  · rename_i hnative
    obtain ⟨view, hview, hrest⟩ := Option.bind_eq_some_iff.mp hbind
    obtain ⟨later, hlater, hresult⟩ := Option.bind_eq_some_iff.mp hrest
    obtain rfl := Option.some.inj hresult
    rw [if_neg hnative]
    rw [dominit0PosixViewBindPageAllocator, Option.ite_none_left_eq_some] at hlater
    obtain rfl := Option.some.inj hlater.2
    have hgrown := hcompleted.grow [] (some { view with pageAllocator := true }) (by
      rintro _ ⟨⟩
      exact { hcompleted.view view hview with }) (fun _ => rfl)
    rwa [List.append_nil] at hgrown

end

section Attaching

variable (hshape : Shape names credentials native store environment)
  (hview : environment.posixView = none) (hroot : environment.posixNamespaceRoot = root)

include hshape hview hroot

theorem attachView_eq_ok (hrun : attachView environment before = (.ok result, after)) :
    Completed (names ++ if native && !root.isSome then [] else [ascii "posix"]) credentials native
      store false false root result := by
  obtain rfl := hshape.native
  subst hroot
  unfold attachView at hrun
  split at hrun
  · rename_i hnone
    obtain ⟨hnative, hempty⟩ := hnone
    obtain ⟨rfl, rfl⟩ := pure_eq_ok.mp hrun
    rw [Option.isNone_iff_eq_none] at hempty
    exact ⟨by simpa [hnative, hempty] using hshape, by simp [hview], by simp [hempty], rfl⟩
  · rename_i hsome
    simp only [bind_eq_ok, ofOption_eq_ok] at hrun
    obtain ⟨view, middle, hcreate, services, _, ⟨hbind, rfl⟩, hpure⟩ := hrun
    obtain ⟨rfl, rfl⟩ := pure_eq_ok.mp hpure
    have hposix : (environment.nativeCapabilities && !environment.posixNamespaceRoot.isSome)
        = false := by
      cases hroot : environment.posixNamespaceRoot with
      | none => simpa [hroot] using hsome
      | some path => simp
    refine ⟨⟨hshape.cwd, ?_, ?_, hshape.credentials, rfl, hshape.store⟩, ?_, ?_, rfl⟩
    · change _ ∈ services
      rw [bind_eq_some hbind]
      exact List.mem_append_left _ hshape.files
    · change boundNames services = _
      rw [bind_eq_some hbind, boundNames_append, hshape.names, hposix]
      rfl
    · rintro _ ⟨⟩
      exact createView_eq_ok hshape hcreate
    · exact fun _ => rfl

theorem bindTerminal_eq_ok
    (hrun : dominit0ProcessEnvironmentBindTerminal environment before = (.ok result, after)) :
    Completed (names ++ terminalNames native root.isSome) credentials native store false false root
      result := by
  simp only [dominit0ProcessEnvironmentBindTerminal, bind_eq_ok, ofOption_eq_ok] at hrun
  obtain ⟨attached, stores, hattach, first, _, ⟨hfirst, rfl⟩, second, _, ⟨hsecond, rfl⟩, third, _,
    ⟨hthird, rfl⟩, fourth, _, ⟨hfourth, rfl⟩, hpure⟩ := hrun
  obtain ⟨rfl, rfl⟩ := pure_eq_ok.mp hpure
  have hattached := attachView_eq_ok hshape hview hroot hattach
  rw [hattached.shape.native] at hfirst hsecond hthird hfourth
  have hservices : fourth = attached.bindings ++ if native then
      [⟨ascii "terminal.control", .terminalControl⟩, ⟨ascii "stdin", .terminalInput⟩,
        ⟨ascii "stdout", .terminalOutput⟩, ⟨ascii "stderr", .terminalOutput⟩] else [] := by
    rw [bindIf_eq_some hfourth, bindIf_eq_some hthird, bindIf_eq_some hsecond,
      bindIf_eq_some hfirst]
    cases native <;> simp
  rw [hservices]
  convert hattached.bind _ using 1
  rw [List.append_assoc]
  cases native <;> rfl

theorem terminalBind_eq_ok {index : ℕ}
    (hrun : dominit0TerminalBindProcessEnvironment domain index environment before
      = (.ok result, after)) :
    Completed (names ++ terminalNames native root.isSome) credentials native store false false root
      result := by
  simp only [dominit0TerminalBindProcessEnvironment, bind_eq_ok, ofOption_eq_ok,
    ofExcept_eq_ok] at hrun
  obtain ⟨-, _, ⟨-, rfl⟩, bound, stores, hbound, assignment, _, ⟨-, rfl⟩, reference, _, ⟨-, rfl⟩,
    hname, rfl⟩ := hrun
  obtain ⟨hcompleted, hviews, hexists, hkept⟩ := bindTerminal_eq_ok hshape hview hroot hbound
  have hindexed : Shape (names ++ terminalNames native root.isSome) credentials native store
      { bound with terminalIndex := index } := { hcompleted with }
  rw [setTerminalName, Option.ite_none_left_eq_some] at hname
  have hset := hindexed.setVariable hname.2
  obtain ⟨sysv, -, hresult⟩ := Option.bind_eq_some_iff.mp hname.2
  obtain rfl := Option.some.inj hresult
  exact ⟨hset, hviews, hexists, hkept⟩

end Attaching

theorem processControl_eq_some {pid : Int32} (hroot : root.isSome = request.posixRoot.isSome)
    (hcompleted : Completed names credentials native store false false root environment)
    (hcontrol : processControl domain request pid admin environment = some result) :
    Completed names credentials native store (root.isSome && admin) root.isSome root result := by
  unfold processControl at hcontrol
  cases hrequest : request.posixRoot with
  | none =>
    rw [hrequest] at hroot hcontrol
    obtain rfl := Option.some.inj hcontrol
    rw [hroot]
    exact hcompleted
  | some path =>
    rw [hrequest] at hroot hcontrol
    obtain ⟨view, hview, hresult⟩ := Option.bind_eq_some_iff.mp hcontrol
    obtain rfl := Option.some.inj hresult
    have hin := hcompleted.view view hview
    rw [hroot]
    refine ⟨{ hcompleted.shape with }, ?_, fun _ => rfl, hcompleted.root⟩
    rintro _ ⟨⟩
    exact ⟨hin.cwd, hin.root, rfl, rfl⟩

theorem completeEnvironment_eq_ok {pid : Int32}
    (hshape : Shape names credentials native store environment)
    (hview : environment.posixView = none) (hroot : environment.posixNamespaceRoot = none)
    (hrun : completeEnvironment domain request pid admin environment before = (.ok result, after)) :
    Completed (names ++ terminalNames native request.posixRoot.isSome
        ++ if native then [ascii "process.lifecycle"] else []) credentials native store
      (request.posixRoot.isSome && admin) request.posixRoot.isSome (request.posixRoot.map cString)
      result := by
  simp only [completeEnvironment, bind_eq_ok, ofOption_eq_ok, orFail_eq_ok] at hrun
  obtain ⟨started, stores, hstarted, rooted, _, ⟨hrooted, rfl⟩, bound, later, hbound, control, _,
    ⟨hcontrol, rfl⟩, hlifecycle, rfl⟩ := hrun
  obtain ⟨hstart, hnone⟩ := hshape.startAtRoot hstarted
  have hnamespace : Shape names credentials native store rooted ∧ rooted.posixView = none
      ∧ rooted.posixNamespaceRoot = request.posixRoot.map cString := by
    unfold namespaceRoot at hrooted
    cases hpath : request.posixRoot with
    | none =>
      unfold startAtRoot at hstarted
      simp only [hpath] at hrooted hstarted
      obtain ⟨rfl, rfl⟩ := pure_eq_ok.mp hstarted
      obtain rfl := Option.some.inj hrooted
      exact ⟨hstart, hview, hroot⟩
    | some path =>
      simp only [hpath] at hrooted
      obtain rfl := setPosixNamespaceRoot_eq_some hrooted
      exact ⟨{ hstart with }, hnone.trans hview, rfl⟩
  obtain ⟨hplaced, hempty, hpath⟩ := hnamespace
  have hterminal := terminalBind_eq_ok hplaced hempty hpath hbound
  have hcontrolled := processControl_eq_some (by simp) hterminal hcontrol
  simpa using bindLifecycle_eq_some hcontrolled hlifecycle

/-! ## Stores during a launch -/

@[simp]
theorem moves_programPath (request : LaunchRequest Handle) :
    Moves Grows (programPath request) := by
  refine (moves_ofOption _ _).bind fun path => Moves.bind ?_ (by simp)
  unfold canonicalPath
  split <;> [skip; split]
  · simp
  · simp
  · exact (moves_openedFilePath path _).bind fun _ => (moves_ofExcept _).bind (by simp)

@[simp]
theorem moves_createEnvironment (domain : CurrentDomain Iid Handle)
    (request : LaunchRequest Handle) : Moves Grows (createEnvironment domain request) := by
  refine Moves.bind ?_ (by simp)
  repeat' first | refine Moves.bind ?_ fun _ => ?_ | simp

@[simp]
theorem moves_setPosixRoot (environment : ProcessEnvironment Handle) (path : List UInt8) :
    Moves Grows (setPosixRoot environment path) := by
  refine (moves_ofOption _ _).bind fun rooted => Moves.bind (by simp) fun root => ?_
  split <;> simp

@[simp]
theorem moves_startAtRoot (request : LaunchRequest Handle)
    (environment : ProcessEnvironment Handle) : Moves Grows (startAtRoot request environment) := by
  unfold startAtRoot
  split <;> [skip; split] <;> simp

@[simp]
theorem moves_rootedView (environment : ProcessEnvironment Handle) (view : PosixView) :
    Moves Grows (rootedView environment view) := by
  unfold rootedView
  split
  · simp
  · exact Moves.bind (by simp) fun _ => (moves_query _).bind (by simp)

@[simp]
theorem moves_attachView (environment : ProcessEnvironment Handle) :
    Moves Grows (attachView environment) := by
  unfold attachView
  split
  · simp
  · repeat' first | refine Moves.bind ?_ fun _ => ?_ | simp

@[simp]
theorem moves_completeEnvironment (domain : CurrentDomain Iid Handle)
    (request : LaunchRequest Handle) (pid : Int32) (admin : Bool)
    (environment : ProcessEnvironment Handle) :
    Moves Grows (completeEnvironment domain request pid admin environment) := by
  repeat' first | refine Moves.bind ?_ fun _ => ?_ | simp

/-! ## The outcome of a launch -/

/-- Neither the domain nor the processes have changed. -/
structure Quiet (before after : ProcessManager Iid Handle) : Prop where
  domain : after.domain = before.domain
  processes : after.processes = before.processes
  stores : Grows before.stores after.stores

instance : Std.Refl (@Quiet Iid Handle) where
  refl _ := ⟨rfl, rfl, Std.Refl.refl _⟩

instance : IsTrans (ProcessManager Iid Handle) Quiet where
  trans _ _ _ hleft hright := ⟨hright.domain.trans hleft.domain,
    hright.processes.trans hleft.processes, IsTrans.trans _ _ _ hleft.stores hright.stores⟩

@[simp]
theorem moves_onStores {Failure α : Type} {attempt : Attempt Stores Failure α}
    (hmoves : Moves Grows attempt) :
    Moves Quiet (onStores attempt : Attempt (ProcessManager Iid Handle) Failure α) :=
  hmoves.zoom (fun _ _ hgrows => ⟨rfl, rfl, hgrows⟩)

@[simp]
theorem moves_takePid : Moves (@Quiet Iid Handle) takePid := by
  intro manager
  unfold takePid
  split <;> exact ⟨rfl, rfl, Std.Refl.refl _⟩

variable {loads : List UInt8 → List (List UInt8) → List (List UInt8) → Bool}

theorem moves_prepareProcess (request : LaunchRequest Handle) :
    Moves (@Quiet Iid Handle) (prepareProcess loads request) := by
  repeat' first | refine Moves.bind ?_ fun _ => ?_ | simp

/-- All names of a launched process. -/
def serviceNames (domain : CurrentDomain Iid Handle) (request : LaunchRequest Handle) :
    List (List UInt8) :=
  createdNames domain request.session (request.initial && request.session.isNone)
      request.nativeCapabilities
    ++ terminalNames request.nativeCapabilities request.posixRoot.isSome
    ++ (if request.nativeCapabilities then [ascii "process.lifecycle"] else [])
    ++ if request.nativeCapabilities then [ascii "memory.pages"] else []

/-- The program that a launch found. -/
structure Program (domain : CurrentDomain Iid Handle) (request : LaunchRequest Handle)
    (process : RunningProcess Handle) (path : List UInt8) (started : PlatformProcess) : Prop where
  state : process.platformState = some started
  image : facetInitrdFindFile domain.initrd path = .ok started.image
  argv : copiedArguments path request.arguments = some started.argv
  restart : restartData request path started.argv = some process.restart
  path : request.cwd = none →
    ∃ copied, copyString request.path = some copied ∧ path = backingPath request copied

/-- What is known of a process that has just been launched. -/
structure Launched (domain : CurrentDomain Iid Handle) (request : LaunchRequest Handle)
    (stores : Stores) (process : RunningProcess Handle) : Prop where
  credentials : launchCredentials request = .ok process.environment.credentials
  completed : Completed (serviceNames domain request) process.environment.credentials
    request.nativeCapabilities process.environment.credentialFiles
    (request.posixRoot.isSome && process.environment.credentials.admin) request.posixRoot.isSome
    (request.posixRoot.map cString) process.environment
  owned : ∃ files, stores[process.environment.credentialFiles]? = some files
    ∧ files.credentials = process.environment.credentials
  terminal : process.terminalIndex = request.terminalIndex
  program : ∃ path started, Program domain request process path started

theorem createdIdentity_credentials {identity : Identity}
    (hcredentials : launchCredentials request = .ok credentials)
    (hidentity : createdIdentity request.session request.identitySource = some identity) :
    identity.credentials = credentials := by
  unfold launchCredentials at hcredentials
  unfold createdIdentity at hidentity
  cases hsource : request.identitySource <;> simp only [hsource] at hcredentials hidentity
  case some parent => rw [← Option.some.inj hidentity, ← Except.ok.inj hcredentials]
  cases hsession : request.session <;> simp only [hsession] at hcredentials hidentity
  case none.none => rw [← Option.some.inj hidentity, ← Except.ok.inj hcredentials]
  unfold sessionIdentity at hidentity
  dsimp only at hidentity
  split at hidentity <;> [skip; contradiction]
  rename_i claimed principal hanswer hprincipal
  rw [hanswer] at hcredentials
  obtain rfl := Except.ok.inj hcredentials
  split at hidentity <;> [skip; contradiction]
  simp only [Option.bind_eq_bind, Option.bind_eq_some_iff, Option.pure_def,
    Option.some.injEq] at hidentity
  obtain ⟨name, -, home, -, shell, -, rfl⟩ := hidentity
  rfl

theorem platformStartProcess_eq_some {image : List UInt8} {argv : List (List UInt8)}
    {platform : PlatformProcess}
    (hstart : platformStartProcess loads image argv environment = some (platform, result)) :
    platform = ⟨image, argv⟩ ∧ bindPageAllocator environment = some result := by
  simp only [platformStartProcess, Option.ite_none_left_eq_some, Option.ite_none_right_eq_some,
    Option.bind_eq_bind, Option.bind_eq_some_iff, Option.some.injEq, Prod.mk.injEq] at hstart
  obtain ⟨-, bound, hbound, -, rfl, rfl⟩ := hstart
  exact ⟨rfl, hbound⟩

theorem programPath_eq_ok (hrun : programPath request before = (.ok path, after))
    (hcwd : request.cwd = none) :
    ∃ copied, copyString request.path = some copied ∧ path = backingPath request copied := by
  simp only [programPath, bind_eq_ok, ofOption_eq_ok] at hrun
  obtain ⟨copied, _, ⟨hcopied, rfl⟩, canonical, stores, hcanonical, hpure⟩ := hrun
  unfold canonicalPath at hcanonical
  simp only [hcwd] at hcanonical
  obtain ⟨rfl, -⟩ := pure_eq_ok.mp hcanonical
  obtain ⟨rfl, -⟩ := pure_eq_ok.mp hpure
  exact ⟨copied, hcopied, rfl⟩

theorem createEnvironment_eq_ok (hcredentials : launchCredentials request = .ok credentials)
    (hrun : createEnvironment domain request before = (.ok result, after)) :
    Shape (createdNames domain request.session (request.initial && request.session.isNone)
        request.nativeCapabilities) credentials request.nativeCapabilities
        result.credentialFiles result
      ∧ result.posixView = none ∧ result.posixNamespaceRoot = none
      ∧ ∃ files, after[result.credentialFiles]? = some files ∧ files.credentials = credentials := by
  simp only [createEnvironment, bind_eq_ok, orFail_eq_ok, ofOption_eq_ok] at hrun
  obtain ⟨created, stores, hcreated, hset, rfl⟩ := hrun
  obtain ⟨identity, hidentity, hshape, hview, hroot, hfiles⟩ := create_eq_ok hcreated
  rw [createdIdentity_credentials hcredentials hidentity] at hshape hfiles
  have hflagged : Shape (createdNames domain request.session
      (request.initial && request.session.isNone) request.nativeCapabilities) credentials
      request.nativeCapabilities created.credentialFiles
      { created with posixCwdSyntheticEtc := request.syntheticPosixCwd } := { hshape with }
  have hresult := hflagged.setVariable hset
  obtain ⟨sysv, -, hrecord⟩ := Option.bind_eq_some_iff.mp hset
  obtain rfl := Option.some.inj hrecord
  exact ⟨hresult, hview, hroot, hfiles⟩

theorem prepareProcess_eq_ok {process : RunningProcess Handle}
    {manager later : ProcessManager Iid Handle}
    (hrun : prepareProcess loads request manager = (.ok process, later)) :
    Launched manager.domain request later.stores process := by
  simp only [prepareProcess, bind_eq_ok, ofExcept_eq_ok, ofOption_eq_ok, query_eq_ok] at hrun
  obtain ⟨-, _, ⟨-, rfl⟩, credentials, _, ⟨hcredentials, rfl⟩, path, located, hlocated, domain, _,
    ⟨hdomain, rfl⟩, image, _, ⟨himage, rfl⟩, argv, _, ⟨hargv, rfl⟩, pid, counted, hpid, created,
    middle, hcreated, completed, ready, hcompleted, restart, _, ⟨hrestart, rfl⟩, started, _,
    ⟨hstarted, rfl⟩, hpure⟩ := hrun
  obtain ⟨platform, environment⟩ := started
  obtain ⟨rfl, rfl⟩ := pure_eq_ok.mp hpure
  obtain rfl : manager.domain = domain :=
    ((moves_onStores (moves_programPath request)).of_eq hlocated).domain.symm.trans
      (Except.ok.inj hdomain)
  obtain ⟨first, hpath, -⟩ := zoom_eq_ok.mp hlocated
  obtain ⟨second, hcreate, rfl⟩ := zoom_eq_ok.mp hcreated
  obtain ⟨third, hcomplete, rfl⟩ := zoom_eq_ok.mp hcompleted
  obtain ⟨hshape, hview, hroot, files, hfiles, howned⟩ := createEnvironment_eq_ok hcredentials
    hcreate
  have hdone := completeEnvironment_eq_ok hshape hview hroot hcomplete
  obtain ⟨rfl, hpages⟩ := platformStartProcess_eq_some hstarted
  have hall := bindPageAllocator_eq_some hdone hpages
  obtain rfl := hall.shape.credentials
  have hstore := hall.shape.store
  obtain ⟨-, -, hfound⟩ := Passes.bind_eq_ok.mp himage
  refine ⟨hcredentials, ?_, ?_, rfl, path, ⟨image, argv⟩, rfl, hfound, hargv,
    hrestart, programPath_eq_ok hpath⟩
  · change Completed _ _ _ environment.credentialFiles _ _ _ _
    rw [hstore]
    exact hall
  · obtain ⟨grown, hgrown, hextends⟩ :=
      (moves_completeEnvironment _ request _ _ _).of_eq hcomplete _ files hfiles
    change ∃ files, third[environment.credentialFiles]? = some files ∧ _
    rw [hstore]
    exact ⟨grown, hgrown, hextends.credentials.trans howned⟩

variable (loads) in
/-- A launch fails and changes nothing that matters, or adds a process that is as the
request says. -/
theorem launchProcess_cases (request : LaunchRequest Handle) (manager : ProcessManager Iid Handle) :
    (∃ failure later, launchProcess loads request manager = (.error failure, later)
        ∧ Quiet manager later)
      ∨ ∃ process later, launchProcess loads request manager = (.ok process, later)
        ∧ Launched manager.domain request later.stores process
        ∧ later.domain = manager.domain ∧ later.processes = manager.processes ++ [process]
        ∧ Grows manager.stores later.stores := by
  have hquiet : Quiet manager (prepareProcess loads request manager).2 :=
    moves_prepareProcess request manager
  unfold launchProcess
  rw [bind_eq]
  cases hprepare : prepareProcess loads request manager with
  | mk outcome later =>
    rw [hprepare] at hquiet
    cases outcome with
    | error failure => exact .inl ⟨failure, later, rfl, hquiet⟩
    | ok process =>
      have hlaunched : Launched manager.domain request later.stores process :=
        prepareProcess_eq_ok hprepare
      exact .inr ⟨process, _, rfl, hlaunched, hquiet.domain,
        congrArg (· ++ [process]) hquiet.processes, hquiet.stores⟩

end FacetOS.Process
