import FacetOS.Process.Launched
import FacetOS.FileView.Execution

/-!
# Sessions of other domains

A session names the domain it was made for.  The manager's two launch methods
compare that domain with their own before they start anything; the spawn callback of
the POSIX views passes any session on.
-/

namespace FacetOS.Process

open FileView Initrd Attempts Posix Config Rpc
open Paths (Name Component)

variable {Iid Handle : Type}

/-- The ways in which a session reaches `launch_process`, with what else they read. -/
inductive LaunchRoute (Handle : Type)
  | launch (caller : CallerClaims)
  | launchOnTerminal (terminal : ℕ)
  | posixSpawn (parent : RunningProcess Handle)

/-- The method that a route calls. -/
inductive RouteKind
  | launch
  | launchOnTerminal
  | posixSpawn
  deriving DecidableEq

def LaunchRoute.kind : LaunchRoute Handle → RouteKind
  | .launch _ => .launch
  | .launchOnTerminal _ => .launchOnTerminal
  | .posixSpawn _ => .posixSpawn

/-- Whether the call succeeds, and the manager it leaves.  On the first route the session is
the one that the caller's environment resolves. -/
def LaunchRoute.run (loads : List UInt8 → List (List UInt8) → List (List UInt8) → Bool)
    (route : LaunchRoute Handle) (session : SessionClaims) (path : List UInt8)
    (arguments : List (List UInt8)) (manager : ProcessManager Iid Handle) :
    Bool × ProcessManager Iid Handle :=
  match route with
  | .launch caller =>
    let result := managerLaunch loads (some { caller with session := .ok (some session) }) path
      arguments manager
    (result.1.isOk, result.2)
  | .launchOnTerminal terminal =>
    let result := managerLaunchOnTerminal loads (some session) terminal path arguments manager
    (result.1.isOk, result.2)
  | .posixSpawn parent =>
    let result := posixSpawnProcess loads parent (some session) path arguments manager
    (result.1.isOk, result.2)

/-- The session is one of the manager's domain, or the call fails and no process is
added. -/
def DomainChecked (session : SessionClaims) (manager : ProcessManager Iid Handle)
    (result : Bool × ProcessManager Iid Handle) : Prop :=
  session.domainId = .ok manager.domain.domainId
    ∨ (result.1 = false ∧ result.2.processes = manager.processes)

/-! ## The methods of the manager -/

variable {loads : List UInt8 → List (List UInt8) → List (List UInt8) → Bool}

theorem checkSessionDomain_eq_error {domain : CurrentDomain Iid Handle} {session : SessionClaims}
    (hforeign : session.domainId ≠ .ok domain.domainId) :
    checkSessionDomain domain session = .error .accessDenied := by
  unfold checkSessionDomain
  cases hanswer : session.domainId with
  | error failure => rfl
  | ok domainId =>
    have hne : domainId ≠ domain.domainId := fun heq => hforeign (heq ▸ hanswer)
    exact if_pos hne

section

variable {manager : ProcessManager Iid Handle} {session : SessionClaims}
  (hforeign : session.domainId ≠ .ok manager.domain.domainId)
include hforeign

theorem managerLaunchOnTerminal_foreign (terminal : ℕ) (path : List UInt8)
    (arguments : List (List UInt8)) :
    managerLaunchOnTerminal loads (some session) terminal path arguments manager
      = (.error .accessDenied, manager) := by
  have hcheck := checkSessionDomain_eq_error hforeign
  simp [managerLaunchOnTerminal, bind_eq, query, ofOption, Attempts.ofExcept, hcheck]

/-- Every answer of the caller that is missing ends in the same refusal. -/
theorem managerLaunch_foreign (caller : CallerClaims)
    (path : List UInt8) (arguments : List (List UInt8)) :
    managerLaunch loads (some { caller with session := .ok (some session) }) path arguments manager
      = (.error .accessDenied, manager) := by
  have hcheck := checkSessionDomain_eq_error hforeign
  obtain ⟨-, sysvEnvironment, terminalIndex, cwd⟩ := caller
  simp only [managerLaunch, bind_eq, query, ofOption, Attempts.ofExcept, orFail]
  cases sysvEnvironment <;> [rfl; skip]
  cases terminalIndex <;> [rfl; skip]
  cases cwd <;> [rfl; skip]
  cases hprincipal : session.principal <;> simp [Except.mapError, hprincipal, hcheck]

end

/-! ## What a session has to answer -/

/-- The answers of the session make up an identity and the variables of a process. -/
def Usable (session : SessionClaims) : Prop :=
  ∃ identity sysv, sessionIdentity (some session) = some identity
    ∧ defaultVariables identity = some sysv

/-- A process of this session was created, so the session is usable. -/
theorem usable_of_launch {session : SessionClaims} {request : LaunchRequest Handle}
    {manager later : ProcessManager Iid Handle} {process : RunningProcess Handle}
    (hsession : request.session = some session) (hidentity : request.identitySource = none)
    (hsysv : request.sysvEnvironment = none)
    (hrun : launchProcess loads request manager = (.ok process, later)) : Usable session := by
  obtain ⟨prepared, ready, hprepare, -⟩ := bind_eq_ok.mp hrun
  simp only [prepareProcess, bind_eq_ok] at hprepare
  obtain ⟨_, _, -, _, _, -, _, _, -, _, _, -, _, _, -, _, _, -, _, _, -, created, _, hcreated, -⟩ :=
    hprepare
  obtain ⟨stores, hcreate, -⟩ := zoom_eq_ok.mp hcreated
  obtain ⟨environment, _, hcreate, -⟩ := bind_eq_ok.mp hcreate
  have hinner := orFail_eq_ok.mp hcreate
  simp only [dominit0ProcessEnvironmentCreate, bind_eq_ok, ofOption_eq_ok, hsession, hidentity,
    hsysv] at hinner
  obtain ⟨identity, _, ⟨hidentity, -⟩, sysv, _, ⟨hsysv, -⟩, -⟩ := hinner
  exact ⟨identity, sysv, hidentity, hsysv⟩

variable (loads) in
/-- A spawn reports success exactly when the launch succeeds. -/
theorem posixSpawnProcess_isOk (parent : RunningProcess Handle) (session : Option SessionClaims)
    (path : List UInt8) (arguments : List (List UInt8)) (manager : ProcessManager Iid Handle) :
    (posixSpawnProcess loads parent session path arguments manager).1.isOk
        = (launchProcess loads (spawnRequest parent session path arguments) manager).1.isOk
      ∧ (posixSpawnProcess loads parent session path arguments manager).2
        = (launchProcess loads (spawnRequest parent session path arguments) manager).2 := by
  unfold posixSpawnProcess
  cases launchProcess loads (spawnRequest parent session path arguments) manager with
  | mk outcome later =>
    cases outcome <;> exact ⟨rfl, rfl⟩

/-- A session that is not usable starts nothing on any route. -/
theorem posixSpawn_unusable {session : SessionClaims} (hunusable : ¬Usable session)
    (parent : RunningProcess Handle) (path : List UInt8) (arguments : List (List UInt8))
    (manager : ProcessManager Iid Handle) :
    (posixSpawnProcess loads parent (some session) path arguments manager).1.isOk = false
      ∧ (posixSpawnProcess loads parent (some session) path arguments manager).2.processes
        = manager.processes := by
  obtain ⟨hok, hafter⟩ := posixSpawnProcess_isOk loads parent (some session) path arguments manager
  rw [hok, hafter]
  cases launchProcess_cases loads (spawnRequest parent (some session) path arguments)
      manager with
  | inl hfailed =>
    obtain ⟨failure, later, hrun, hquiet⟩ := hfailed
    rw [hrun]
    exact ⟨rfl, hquiet.processes⟩
  | inr hstarted =>
    obtain ⟨process, later, hrun, -⟩ := hstarted
    exact absurd (usable_of_launch rfl rfl rfl hrun) hunusable

/-! ## A spawn that nothing refuses -/

/-- A POSIX domain with one terminal and an archive with one program. -/
def spawnDomain [Inhabited Iid] (domainId : ℕ) : CurrentDomain Iid Handle where
  system := {}
  parsed := { id := some domainId, personality := some .posix
              terminals := some [{ reference := some (ascii "t") }] }
  initrd := programArchive
  interfaces := default
  environment := ⟨none, none, none, none, []⟩
  terminals := [0]

/-- A process of that domain with the root as its namespace and its directory. -/
def spawnParent : RunningProcess Handle where
  platformState := none
  running := true
  exitStatus := 0
  pid := 1
  terminalIndex := 0
  environment :=
    { bindings := []
      ownedSession := none
      nativeCapabilities := false
      posixView := none
      posixNamespaceRoot := some [slash]
      posixCwdSyntheticEtc := false
      sysvEnvironment := []
      ownedCwd := .client ⟨.ok [slash], fun _ => .error .notFound⟩
      credentialFiles := 0
      credentials := rootCredentials
      terminalIndex := 0 }
  restart := none

def spawnManager [Inhabited Iid] (domainId : ℕ) : ProcessManager Iid Handle where
  domain := spawnDomain domainId
  processes := [spawnParent]
  nextPid := 2
  stores := []

variable (credentials : Credentials)

/-- The store of an identity over the archive, before and after its root is opened. -/
def freshStore (nodes : List CredentialNode) : CredentialFileStore :=
  ⟨programArchive, credentials, defaultPasswd, defaultShadow, nodes⟩

def rootNode : CredentialNode := ⟨.backing rootEntry, true, 0⟩

theorem checkSearch_programRoot : checkSearch programArchive credentials [slash] true = .ok () := by
  have hvisited : searchedPaths [slash] true = [[slash]] := by decide
  rw [checkSearch, if_neg (by decide), hvisited, checkAll_eq_ok_iff]
  intro path hpath
  rw [List.mem_singleton.mp hpath]
  exact checkSearchStep_root programArchive credentials

theorem storeOpen_programRoot (nodes : List CredentialNode) :
    storeOpen (freshStore credentials nodes) [slash] true
      = (.ok (wrapNode (freshStore credentials nodes) (.backing rootEntry) true).1,
        (wrapNode (freshStore credentials nodes) (.backing rootEntry) true).2) := by
  have hopen : facetInitrdOpenNode programArchive [slash] [slash] true = .ok rootEntry := by decide
  have hsynthetic : syntheticForPath (cString [slash]) true = none := by decide
  rw [storeOpen, if_neg (by decide), FileView.openNode, hsynthetic]
  rw [openArchived, show (freshStore credentials nodes).initrd = programArchive from rfl, hopen]
  dsimp only
  rw [show rootEntry.path = [slash] from rfl,
    show (freshStore credentials nodes).credentials = credentials from rfl,
    checkSearch_programRoot]

theorem storeOpenIn_programRoot : storeOpenIn 0 [slash] true [freshStore credentials []]
        = (.ok ⟨0, 0⟩, [freshStore credentials [rootNode]])
      ∧ storeOpenIn 0 [slash] true [freshStore credentials [rootNode]]
        = (.ok ⟨0, 0⟩, [freshStore credentials [rootNode]]) := by
  unfold storeOpenIn inStore
  simp only [List.getElem?_cons_zero, storeOpen_programRoot]
  exact ⟨rfl, rfl⟩

theorem exists_replaceSysvEnvironment {entries : List (List UInt8)}
    (hroom : entries.length < sysvEnvironmentMax) (key value : List UInt8) :
    ∃ replaced, replaceSysvEnvironment entries key value = some replaced
      ∧ replaced.length ≤ entries.length + 1 := by
  unfold replaceSysvEnvironment
  split
  · exact ⟨_, rfl, by simp⟩
  · have hadded : ¬(equalsSign ∉ key ++ equalsSign :: value
        ∨ entries.length = sysvEnvironmentMax) := by
      rw [not_or, not_not]
      exact ⟨by simp, hroom.ne⟩
    exact ⟨_, if_neg hadded, by simp⟩

theorem exists_setVariable (environment : ProcessEnvironment Handle)
    (hroom : environment.sysvEnvironment.length < sysvEnvironmentMax) (key value : List UInt8) :
    ∃ replaced, setVariable environment key value
        = some { environment with sysvEnvironment := replaced }
      ∧ replaced.length ≤ environment.sysvEnvironment.length + 1 := by
  obtain ⟨replaced, hreplaced, hlength⟩ := exists_replaceSysvEnvironment hroom key value
  exact ⟨replaced, by simp [setVariable, hreplaced], hlength⟩

theorem foldlM_addSysvEnvironment {values entries added : List (List UInt8)}
    (hadd : values.foldlM addSysvEnvironment entries = some added) : added = entries ++ values := by
  induction values generalizing entries with
  | nil => simpa using hadd.symm
  | cons value values ih =>
    obtain ⟨next, hnext, hrest⟩ := Option.bind_eq_some_iff.mp (List.foldlM_cons.symm.trans hadd)
    obtain ⟨-, ⟨⟩⟩ := Option.ite_none_left_eq_some.mp hnext
    rw [ih hrest, List.append_assoc, List.singleton_append]

theorem length_defaultVariables {identity : Identity} {sysv : List (List UInt8)}
    (hsysv : defaultVariables identity = some sysv) : sysv.length = 5 := by
  unfold defaultVariables at hsysv
  dsimp only at hsysv
  split at hsysv
  · contradiction
  · rw [foldlM_addSysvEnvironment hsysv]
    rfl

/-- The environment of a process of that domain. -/
def spawnedEnvironment (session : SessionClaims) (credentials : Credentials)
    (sysv : List (List UInt8)) : ProcessEnvironment Handle where
  bindings := [⟨ascii "files", .files 0⟩, ⟨ascii "cwd", .directory (.node ⟨0, 0⟩)⟩]
  ownedSession := some session
  nativeCapabilities := false
  posixView := none
  posixNamespaceRoot := none
  posixCwdSyntheticEtc := false
  sysvEnvironment := sysv
  ownedCwd := .node ⟨0, 0⟩
  credentialFiles := 0
  credentials := credentials
  terminalIndex := 0

section Creation

variable [Inhabited Iid] {session : SessionClaims} {identity : Identity} {sysv : List (List UInt8)}
  (hidentity : sessionIdentity (some session) = some identity)
  (hsysv : defaultVariables identity = some sysv) (domainId : ℕ)

include hidentity hsysv

theorem create_spawn :
    dominit0ProcessEnvironmentCreate (spawnDomain domainId : CurrentDomain Iid Handle)
        (some session) false false none
        (some (spawnParent : RunningProcess Handle).environment.ownedCwd) none []
      = (.ok (spawnedEnvironment session identity.credentials sysv),
        [freshStore identity.credentials [rootNode]]) := by
  have hstore : dominit0CredentialFileStoreCreate programArchive [] identity.credentials []
      = (.ok 0, [freshStore identity.credentials []]) := rfl
  have hroot := (storeOpenIn_programRoot identity.credentials).1
  have hcwd : openCwd 0 (some (spawnParent : RunningProcess Handle).environment.ownedCwd)
      [freshStore identity.credentials []]
      = (.ok ⟨0, 0⟩, [freshStore identity.credentials [rootNode]]) := by
    simp only [openCwd, bind_eq, spawnParent, query, directoryPath, orFail, Except.mapError, hroot]
  have hfiles : bind ([] : List (ProcessBinding Handle)) (ascii "files") (.files 0)
      = some [⟨ascii "files", .files 0⟩] := rfl
  have hbound : bind ([⟨ascii "files", .files 0⟩] : List (ProcessBinding Handle)) (ascii "cwd")
      (.directory (.node ⟨0, 0⟩))
      = some [⟨ascii "files", .files 0⟩, ⟨ascii "cwd", .directory (.node ⟨0, 0⟩)⟩] := rfl
  simp only [dominit0ProcessEnvironmentCreate, bind_eq, createdIdentity, hidentity, ofOption, hsysv,
    delegate, Bool.false_eq_true, and_self, if_false, List.foldlM_nil, spawnDomain,
    Option.elim_some, Option.pure_def, hstore, hfiles, bindIf, hcwd, hbound]
  rfl

theorem createEnvironment_spawn (path : List UInt8) :
    ∃ replaced, createEnvironment (spawnDomain domainId : CurrentDomain Iid Handle)
        (spawnRequest spawnParent (some session) path []) []
      = (.ok (spawnedEnvironment session identity.credentials replaced),
        [freshStore identity.credentials [rootNode]]) ∧ replaced.length ≤ 6 := by
  have hroom : sysv.length < sysvEnvironmentMax := by
    rw [length_defaultVariables hsysv]
    decide
  let created : ProcessEnvironment Handle := spawnedEnvironment session identity.credentials sysv
  obtain ⟨replaced, hset, hlength⟩ := exists_setVariable created hroom (ascii "FACET_DOMAIN_ID")
    (decimal domainId)
  refine ⟨replaced, ?_, ?_⟩
  · have hdomain : setDomainId { created with
          posixCwdSyntheticEtc :=
            (spawnParent : RunningProcess Handle).environment.posixCwdSyntheticEtc }
        (spawnDomain domainId : CurrentDomain Iid Handle).domainId
        = some (spawnedEnvironment session identity.credentials replaced) := hset
    have hcreate : dominit0ProcessEnvironmentCreate
        (spawnDomain domainId : CurrentDomain Iid Handle) (some session) false
        (spawnParent : RunningProcess Handle).environment.nativeCapabilities none
        (some (spawnParent : RunningProcess Handle).environment.ownedCwd) none []
        = (.ok created, [freshStore identity.credentials [rootNode]]) :=
      create_spawn hidentity hsysv domainId
    simp only [createEnvironment, bind_eq, orFail, spawnRequest, Bool.false_and,
      Option.isSome_some, if_true, hcreate, Except.mapError, ofOption, hdomain, Option.elim_some]
  · calc
      replaced.length ≤ sysv.length + 1 := hlength
      _ = 6 := by rw [length_defaultVariables hsysv]

end Creation

/-- The same environment with its root, and then with its view. -/
def rootedEnvironment (session : SessionClaims) (credentials : Credentials)
    (sysv : List (List UInt8)) : ProcessEnvironment Handle :=
  { spawnedEnvironment session credentials sysv with posixNamespaceRoot := some [slash] }

def viewedEnvironment (session : SessionClaims) (credentials : Credentials)
    (sysv : List (List UInt8)) (view : PosixView) : ProcessEnvironment Handle :=
  { (rootedEnvironment session credentials sysv : ProcessEnvironment Handle) with
    posixView := some view
    bindings := [⟨ascii "files", .files 0⟩, ⟨ascii "cwd", .directory (.node ⟨0, 0⟩)⟩,
      ⟨ascii "posix", .posixView⟩] }

section Completion

variable (session : SessionClaims) (credentials : Credentials)

theorem createView_spawn (sysv : List (List UInt8)) :
    ∃ view, createView (rootedEnvironment session credentials sysv : ProcessEnvironment Handle)
        [freshStore credentials [rootNode]]
      = (.ok view, [freshStore credentials [rootNode]])
      ∧ view.lifecycle = false ∧ view.pageAllocator = false := by
  have hroot := (storeOpenIn_programRoot credentials).2
  have hpath : nodePath [freshStore credentials [rootNode]] ⟨0, 0⟩ = .ok [slash] := rfl
  simp only [createView, bind_eq, rootedEnvironment, spawnedEnvironment, DirectoryHandle.node?,
    ofOption, query, credentialTexts, rootedView, orFail, hroot, hpath, Option.elim_some,
    Except.mapError, List.getElem?_cons_zero, dominit0PosixViewSetRoot,
    dominit0PosixViewBindCwdSync, dominit0PosixViewSetCredentialFiles, dominit0PosixViewCreate]
  exact ⟨_, rfl, rfl, rfl⟩

theorem attachView_spawn (sysv : List (List UInt8)) :
    ∃ view, attachView (rootedEnvironment session credentials sysv : ProcessEnvironment Handle)
        [freshStore credentials [rootNode]]
      = (.ok (viewedEnvironment session credentials sysv view), [freshStore credentials [rootNode]])
      ∧ view.lifecycle = false ∧ view.pageAllocator = false := by
  obtain ⟨view, hview, hunbound⟩ := @createView_spawn Handle session credentials sysv
  refine ⟨view, ?_, hunbound⟩
  have hbind : bind
      (rootedEnvironment session credentials sysv : ProcessEnvironment Handle).bindings
      (ascii "posix") .posixView = some
        (viewedEnvironment session credentials sysv view : ProcessEnvironment Handle).bindings :=
    rfl
  rw [attachView, if_neg (by simp [rootedEnvironment, spawnedEnvironment])]
  simp only [bind_eq, hview, ofOption, hbind, Option.elim_some]
  rfl

theorem terminalBind_spawn [Inhabited Iid] {sysv : List (List UInt8)} (hlength : sysv.length ≤ 6)
    (domainId : ℕ) :
    ∃ replaced view, dominit0TerminalBindProcessEnvironment
        (spawnDomain domainId : CurrentDomain Iid Handle) 0
        (rootedEnvironment session credentials sysv) [freshStore credentials [rootNode]]
      = (.ok (viewedEnvironment session credentials replaced view),
        [freshStore credentials [rootNode]])
      ∧ view.lifecycle = false ∧ view.pageAllocator = false := by
  obtain ⟨view, hattach, hlifecycle, hpages⟩ :=
    @attachView_spawn Handle session credentials sysv
  have hroom : sysv.length < sysvEnvironmentMax := lt_of_le_of_lt hlength (by decide)
  obtain ⟨replaced, hset, -⟩ := exists_setVariable
    (viewedEnvironment session credentials sysv view : ProcessEnvironment Handle) hroom
    (ascii "FACET_TERMINAL") (ascii "t")
  refine ⟨replaced, view, ?_, hlifecycle, hpages⟩
  have hname : setTerminalName
      (viewedEnvironment session credentials sysv view : ProcessEnvironment Handle) (ascii "t")
      = some (viewedEnvironment session credentials replaced view) := hset
  have hbind : dominit0ProcessEnvironmentBindTerminal
      (rootedEnvironment session credentials sysv : ProcessEnvironment Handle)
      [freshStore credentials [rootNode]]
      = (.ok (viewedEnvironment session credentials sysv view),
        [freshStore credentials [rootNode]]) :=
    ok_then hattach rfl
  exact ok_then rfl (ok_then hbind (ok_then rfl (ok_then rfl (ofOption_eq_ok.mpr ⟨hname, rfl⟩))))

theorem completeEnvironment_spawn [Inhabited Iid] {sysv : List (List UInt8)}
    (hlength : sysv.length ≤ 6) (domainId : ℕ) (path : List UInt8) (pid : Int32) (admin : Bool) :
    ∃ environment, completeEnvironment (spawnDomain domainId : CurrentDomain Iid Handle)
        (spawnRequest spawnParent (some session) path []) pid admin
        (spawnedEnvironment session credentials sysv) [freshStore credentials [rootNode]]
      = (.ok environment, [freshStore credentials [rootNode]])
      ∧ (bindPageAllocator environment).isSome := by
  obtain ⟨replaced, view, hterminal, hlifecycle, hpages⟩ :=
    @terminalBind_spawn Iid Handle session credentials _ sysv hlength domainId
  let controlled := dominit0PosixViewBindProcessControl view domainId pid admin
  have hbound : bindLifecycle (viewedEnvironment session credentials replaced controlled :
      ProcessEnvironment Handle)
      = some (viewedEnvironment session credentials replaced
        { controlled with lifecycle := true }) := by
    simp [bindLifecycle, viewedEnvironment, rootedEnvironment, spawnedEnvironment, controlled,
      dominit0PosixViewBindProcessControl, dominit0PosixViewBindLifecycle, hlifecycle, bindIf]
  refine ⟨_, ok_then rfl (ok_then rfl (ok_then (orFail_eq_ok.mpr hterminal)
    (ok_then rfl (ofOption_eq_ok.mpr ⟨hbound, rfl⟩)))), ?_⟩
  simp [bindPageAllocator, viewedEnvironment, rootedEnvironment, spawnedEnvironment, controlled,
      dominit0PosixViewBindProcessControl, dominit0PosixViewBindPageAllocator, hpages]

end Completion

/-- Anybody may execute the program. -/
theorem executableImage_program (credentials : Credentials) :
    executableImage programArchive (ascii "/program") credentials = .ok [7] := by
  have hpath : CanonicalPath (ascii "/program") :=
    { rendered := ⟨[ascii "program"], by simp [NameStack, Name, Component]; decide, by decide⟩
      terminated := by decide
      fits := by decide }
  have hancestors : ancestorPaths (ascii "/program") = [] := by decide
  have happroach : Approachable programArchive credentials (ascii "/program") := by
    simp [Approachable, hancestors]
  have hfound : findEntry programArchive (ascii "/program") false
      = some ⟨ascii "/program", [7], false, 0o100755, 0, 0⟩ := by decide
  have hallowed : modeAllows 0o100755 0 0 credentials.uid credentials.gid credentials.admin 1
      = true := by
    unfold modeAllows
    split_ifs <;> decide
  have hcheck := (facetInitrdCheckExecute_eq_ok_iff hpath).mpr ⟨happroach, _, hfound, hallowed⟩
  have hfind : facetInitrdFindFile programArchive (ascii "/program") = .ok [7] := by decide
  rw [executableImage, hcheck]
  exact hfind

/-- The two readings of a session's credentials agree. -/
theorem launchCredentials_of_identity {request : LaunchRequest Handle} {session : SessionClaims}
    {identity : Identity} (hsession : request.session = some session)
    (hsource : request.identitySource = none)
    (hidentity : sessionIdentity (some session) = some identity) :
    launchCredentials request = .ok identity.credentials := by
  have hcreated : createdIdentity request.session request.identitySource = some identity := by
    rw [hsource, hsession]
    exact hidentity
  cases hanswer : session.credentials with
  | error failure => simp [sessionIdentity, hanswer] at hidentity
  | ok credentials =>
    have hcredentials : launchCredentials request = .ok credentials := by
      simp [launchCredentials, hsource, hsession, hanswer, Except.mapError]
    rw [createdIdentity_credentials hcredentials hcreated, hcredentials]

/-- A spawn starts the program for every session that can be used. -/
theorem launchProcess_spawn [Inhabited Iid] {session : SessionClaims} (husable : Usable session)
    (domainId : ℕ) :
    ∃ process later, launchProcess (fun _ _ _ => true)
        (spawnRequest spawnParent (some session) (ascii "/program") [])
        (spawnManager domainId : ProcessManager Iid Handle) = (.ok process, later) := by
  obtain ⟨identity, sysv, hidentity, hsysv⟩ := husable
  have hcredentials : launchCredentials (spawnRequest (spawnParent : RunningProcess Handle)
      (some session) (ascii "/program") []) = .ok identity.credentials :=
    launchCredentials_of_identity rfl rfl hidentity
  have hpath : programPath (spawnRequest (spawnParent : RunningProcess Handle) (some session)
      (ascii "/program") []) [] = (.ok (ascii "/program"), []) := rfl
  obtain ⟨replaced, hcreate, hlength⟩ :=
    @createEnvironment_spawn Iid Handle _ session identity sysv hidentity hsysv domainId
      (ascii "/program")
  obtain ⟨environment, hcomplete, hpages⟩ := @completeEnvironment_spawn Iid Handle session
    identity.credentials _ replaced hlength domainId (ascii "/program") 2 identity.credentials.admin
  obtain ⟨bound, hbound⟩ := Option.isSome_iff_exists.mp hpages
  have hstart : platformStartProcess (fun _ _ _ => true) [7] [ascii "/program"] environment
      = some (⟨[7], [ascii "/program"]⟩, bound) := by
    simp [platformStartProcess, hbound]
  exact ⟨_, _, ok_then
    (ok_then rfl <| ok_then (ofExcept_eq_ok.mpr ⟨hcredentials, rfl⟩) <|
      ok_then (zoom_eq_ok.mpr ⟨_, hpath, rfl⟩) <| ok_then rfl <|
      ok_then (ofExcept_eq_ok.mpr ⟨executableImage_program _, rfl⟩) <| ok_then rfl <|
      ok_then rfl <| ok_then (zoom_eq_ok.mpr ⟨_, hcreate, rfl⟩) <|
      ok_then (zoom_eq_ok.mpr ⟨_, hcomplete, rfl⟩) <| ok_then rfl <|
      ok_then (ofOption_eq_ok.mpr ⟨hstart, rfl⟩) rfl) rfl⟩

/-- On a spawn nothing but the session's own answers stands in the way of a session of another
domain. -/
theorem posixSpawn_unchecked [Inhabited Iid] {session : SessionClaims} (husable : Usable session)
    {domainId : ℕ} (hforeign : session.domainId ≠ .ok domainId) :
    ¬DomainChecked session (spawnManager domainId : ProcessManager Iid Handle)
      (LaunchRoute.run (fun _ _ _ => true) (.posixSpawn spawnParent) session (ascii "/program") []
        (spawnManager domainId)) := by
  obtain ⟨process, later, hlaunch⟩ := @launchProcess_spawn Iid Handle _ session husable domainId
  have hok := (posixSpawnProcess_isOk (fun _ _ _ => true) spawnParent (some session)
    (ascii "/program") [] (spawnManager domainId : ProcessManager Iid Handle)).1
  rw [hlaunch] at hok
  rintro (hdomain | ⟨hfailed, -⟩)
  · exact hforeign hdomain
  · exact Bool.false_ne_true (hfailed.symm.trans hok)

/-- The manager's methods start nothing with a session of another domain; a spawn does so for
every session that answers what a process is made of. -/
theorem sessions_domain_checked_iff [Inhabited Iid] (session : SessionClaims) (domainId : ℕ)
    (kind : RouteKind) :
    (∀ (loads : List UInt8 → List (List UInt8) → List (List UInt8) → Bool)
        (manager : ProcessManager Iid Handle) (route : LaunchRoute Handle) (path : List UInt8)
        (arguments : List (List UInt8)), manager.domain.domainId = domainId → route.kind = kind →
        DomainChecked session manager (route.run loads session path arguments manager))
      ↔ kind ≠ .posixSpawn ∨ session.domainId = .ok domainId ∨ ¬Usable session := by
  constructor
  · intro hchecked
    by_contra hfalse
    obtain ⟨hkind, hforeign, husable⟩ := by simpa only [not_or, not_not] using hfalse
    exact @posixSpawn_unchecked Iid Handle _ session husable domainId hforeign
      (hchecked _ _ (.posixSpawn spawnParent) _ _ rfl hkind.symm)
  · intro hcondition loads manager route path arguments hdomain hkind
    by_cases hforeign : session.domainId = .ok manager.domain.domainId
    · exact .inl hforeign
    right
    cases route with
    | launch | launchOnTerminal =>
      simp [LaunchRoute.run, managerLaunch_foreign hforeign,
        managerLaunchOnTerminal_foreign hforeign, Except.isOk, Except.toBool]
    | posixSpawn parent =>
      obtain hother | hsame | hunusable := hcondition
      · exact absurd hkind.symm hother
      · exact absurd (hdomain ▸ hsame) hforeign
      · exact posixSpawn_unusable hunusable parent path arguments manager

/-- A POSIX domain with the id 1 in which one process was launched for its terminal. -/
def startedManager : ProcessManager Unit Unit :=
  (managerLaunchInitial (fun _ _ _ => true) (ascii "/program") [] 0 (some [slash])
    { (spawnManager 1 : ProcessManager Unit Unit) with processes := [], nextPid := 1 }).2

/-- A session of the domain with the id 7. -/
def otherSession : SessionClaims :=
  sessionClaims ⟨7, { name := some (ascii "u"), uid := some 5, gid := some 5
                      homePath := some (ascii "/") }⟩

/-- The process of domain 1 spawns a child with the session of domain 7. -/
theorem other_domain_session_spawned :
    ∃ parent ∈ startedManager.processes, ¬DomainChecked otherSession startedManager
      (LaunchRoute.run (fun _ _ _ => true) (.posixSpawn parent) otherSession (ascii "/program") []
        startedManager) := by
  have hspawned : startedManager.processes.any (fun parent =>
      (LaunchRoute.run (fun _ _ _ => true) (.posixSpawn parent) otherSession (ascii "/program") []
        startedManager).1) = true := by decide +kernel
  have hdomain : startedManager.domain.domainId = 1 := by decide +kernel
  obtain ⟨parent, hparent, hsuccess⟩ := List.any_eq_true.mp hspawned
  refine ⟨parent, hparent, ?_⟩
  rintro (hsame | ⟨hfailed, -⟩)
  · rw [hdomain] at hsame
    exact absurd (Except.ok.inj hsame) (by decide)
  · exact Bool.false_ne_true (hfailed.symm.trans hsuccess)

end FacetOS.Process
