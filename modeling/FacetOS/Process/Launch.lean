import FacetOS.Process.Environment
import FacetOS.Auth.Authority

/-!
# Launching processes

A process manager starts the processes of one domain.  Four routes lead to
`launch_process`: the initial processes that `dominit` starts, launches by native
processes, launches on a terminal, and the spawn callback of the POSIX views.  A
fifth starts a replacement when an initial process exits.

What the platform makes of an image is a parameter of the development.
-/

namespace FacetOS.Process

open FileView Initrd Attempts Posix Config Auth Rpc
open Passes (reject)

/-! ## Managers -/

/-- What the platform was asked to run. -/
structure PlatformProcess where
  image : List UInt8
  argv : List (List UInt8)
  deriving DecidableEq

/-- What an initial process is started with again. -/
structure RestartData where
  path : List UInt8
  argv : List (List UInt8)
  posixRoot : Option (List UInt8)
  fromPosixView : Bool
  nativeCapabilities : Bool
  deriving DecidableEq

/-- `RunningProcess`; the restart data is that of initial processes only. -/
structure RunningProcess (Handle : Type) where
  platformState : Option PlatformProcess
  running : Bool
  exitStatus : Int32
  pid : Int32
  terminalIndex : ℕ
  environment : ProcessEnvironment Handle
  restart : Option RestartData

/-- `ProcessManager` together with the credential stores of its domain.  The list of the
source starts with the newest process; here the newest comes last, so that a process keeps
its position, which stands for its address. -/
structure ProcessManager (Iid Handle : Type) where
  domain : CurrentDomain Iid Handle
  processes : List (RunningProcess Handle)
  nextPid : Int32
  stores : Stores

/-- The parameters of `launch_process`. -/
structure LaunchRequest (Handle : Type) where
  path : List UInt8
  arguments : List (List UInt8)
  session : Option SessionClaims
  initial : Bool
  terminalIndex : ℕ
  sysvEnvironment : Option (List (List UInt8))
  cwd : Option DirectoryHandle
  syntheticPosixCwd : Bool
  fromPosixView : Bool
  nativeCapabilities : Bool
  posixRoot : Option (List UInt8)
  identitySource : Option (ProcessEnvironment Handle)

section Launch

variable {Iid Handle : Type}

def CurrentDomain.domainId (domain : CurrentDomain Iid Handle) : ℕ := domain.parsed.id.getD 0

def CurrentDomain.native (domain : CurrentDomain Iid Handle) : Bool :=
  domain.parsed.personality = some .native

/-! ## The program -/

variable (request : LaunchRequest Handle)

def launchCredentials : Except FacetError Credentials :=
  match request.identitySource, request.session with
  | some parent, _ => .ok parent.credentials
  | none, none => .ok rootCredentials
  | none, some session => session.credentials.mapError (fun _ => .accessDenied)

/-- Absolute paths of a POSIX view are paths below its root. -/
def backingPath (path : List UInt8) : List UInt8 :=
  match request.posixRoot with
  | none => path
  | some root =>
    if request.fromPosixView ∧ 1 < root.length ∧ path.head? = some slash then
      cString (root ++ path)
    else path

/-- A relative path is looked up from the current directory. -/
def canonicalPath (path : List UInt8) : Attempt Stores FacetError (List UInt8) :=
  match request.cwd with
  | none => return path
  | some directory =>
    if path.head? = some slash then return path
    else do
      let canonical ← openedFilePath path directory
      ofExcept (reject (canonical = []) .invalidArgument)
      ofOption .outOfMemory (copyString canonical)

def programPath : Attempt Stores FacetError (List UInt8) := do
  let path ← ofOption .invalidArgument (copyString request.path)
  let path ← canonicalPath request path
  return backingPath request path

def executableImage (initrd : FacetInitrd) (path : List UInt8) (credentials : Credentials) :
    Except FacetError (List UInt8) := do
  facetInitrdCheckExecute initrd path credentials.uid credentials.gid credentials.admin
  facetInitrdFindFile initrd path

def copiedArguments (path : List UInt8) (arguments : List (List UInt8)) :
    Option (List (List UInt8)) :=
  if arguments = [] then some [path] else arguments.mapM copyString

/-! ## The environment of a new process -/

variable (domain : CurrentDomain Iid Handle)

def dominit0TerminalBindProcessEnvironment (index : ℕ) (environment : ProcessEnvironment Handle) :
    Attempt Stores Unit (ProcessEnvironment Handle) := do
  ofExcept (reject (index ∉ domain.terminals) ())
  let environment ← dominit0ProcessEnvironmentBindTerminal environment
  let assignment ← ofOption () (domainTerminals domain.parsed)[index]?
  let reference ← ofOption () assignment.reference
  ofOption () (setTerminalName { environment with terminalIndex := index } reference)

/-- Processes started from a POSIX view without a directory begin at its root. -/
def startAtRoot (environment : ProcessEnvironment Handle) :
    Attempt Stores Unit (ProcessEnvironment Handle) :=
  match request.posixRoot with
  | none => return environment
  | some root =>
    if request.fromPosixView ∧ request.cwd.isNone then setPosixRoot environment (cString root)
    else return environment

def namespaceRoot (environment : ProcessEnvironment Handle) : Option (ProcessEnvironment Handle) :=
  match request.posixRoot with
  | none => some environment
  | some root => setPosixNamespaceRoot environment (cString root)

variable (request : LaunchRequest Handle)

def processControl (pid : Int32) (admin : Bool) (environment : ProcessEnvironment Handle) :
    Option (ProcessEnvironment Handle) :=
  match request.posixRoot with
  | none => some environment
  | some _ => bindPosixProcessControl environment domain.domainId pid admin

def createEnvironment : Attempt Stores FacetError (ProcessEnvironment Handle) := do
  let environment ← orFail .outOfMemory (dominit0ProcessEnvironmentCreate domain request.session
    (request.initial && request.session.isNone) request.nativeCapabilities
    request.sysvEnvironment request.cwd request.identitySource)
  ofOption .outOfMemory
    (setDomainId { environment with posixCwdSyntheticEtc := request.syntheticPosixCwd }
      domain.domainId)

def completeEnvironment (pid : Int32) (admin : Bool) (environment : ProcessEnvironment Handle) :
    Attempt Stores FacetError (ProcessEnvironment Handle) := do
  let environment ← orFail .notFound (startAtRoot request environment)
  let environment ← ofOption .notFound (namespaceRoot request environment)
  let environment ← orFail .notFound
    (dominit0TerminalBindProcessEnvironment domain request.terminalIndex environment)
  let environment ← ofOption .error (processControl domain request pid admin environment)
  ofOption .outOfMemory (bindLifecycle environment)

/-! ## The launch -/

/-- A counter that has run over starts again at one. -/
def takePid : Attempt (ProcessManager Iid Handle) FacetError Int32 := fun manager =>
  if manager.nextPid ≤ 0 then (.ok 1, { manager with nextPid := 1 })
  else (.ok manager.nextPid, { manager with nextPid := manager.nextPid + 1 })

def restartData (path : List UInt8) (argv : List (List UInt8)) : Option (Option RestartData) :=
  if request.initial then do
    let posixRoot ← match request.posixRoot with
      | none => some none
      | some root => (copyString root).map some
    return some ⟨path, argv, posixRoot, request.fromPosixView, request.nativeCapabilities⟩
  else some none

variable (loads : List UInt8 → List (List UInt8) → List (List UInt8) → Bool)

/-- `loads` tells whether the platform can run an image with these arguments and
variables; the page allocator is bound on the way. -/
def platformStartProcess (image : List UInt8) (argv : List (List UInt8))
    (environment : ProcessEnvironment Handle) :
    Option (PlatformProcess × ProcessEnvironment Handle) :=
  if image = [] then none
  else do
    let environment ← bindPageAllocator environment
    if loads image argv environment.sysvEnvironment then some (⟨image, argv⟩, environment)
    else none

def onStores {Failure α : Type} (attempt : Attempt Stores Failure α) :
    Attempt (ProcessManager Iid Handle) Failure α :=
  zoom ProcessManager.stores (fun stores manager => { manager with stores }) attempt

def addProcess (process : RunningProcess Handle) :
    Attempt (ProcessManager Iid Handle) FacetError (RunningProcess Handle) := fun manager =>
  (.ok process, { manager with processes := manager.processes ++ [process] })

/-- Everything of a launch but the entry in the manager's list. -/
def prepareProcess (request : LaunchRequest Handle) :
    Attempt (ProcessManager Iid Handle) FacetError (RunningProcess Handle) := do
  ofExcept (reject (64 < request.arguments.length ∨ (request.initial = false
    ∧ request.session.isNone ∧ request.identitySource.isNone)) .invalidArgument)
  let credentials ← ofExcept (launchCredentials request)
  let path ← onStores (programPath request)
  let domain ← query (fun manager => .ok manager.domain)
  let image ← ofExcept (executableImage domain.initrd path credentials)
  let argv ← ofOption .outOfMemory (copiedArguments path request.arguments)
  let pid ← takePid
  let environment ← onStores (createEnvironment domain request)
  let environment ← onStores
    (completeEnvironment domain request pid credentials.admin environment)
  let restart ← ofOption .outOfMemory (restartData request path argv)
  let (platform, environment) ← ofOption .error (platformStartProcess loads image argv environment)
  return {
    platformState := some platform
    running := true
    exitStatus := 0
    pid
    terminalIndex := request.terminalIndex
    environment
    restart }

def launchProcess (request : LaunchRequest Handle) :
    Attempt (ProcessManager Iid Handle) FacetError (RunningProcess Handle) := do
  let process ← prepareProcess loads request
  addProcess process

/-! ## The routes -/

/-- The entry of a domain in the table of authorities; it stays zero without a source. -/
def tableAuthority (system : FacetSystemConfig) (domain : FacetConfigDomain) : AuthAuthority :=
  if domain.authenticationSourceIndex = noSource then ⟨0, [], []⟩
  else initializeAuthority system domain

/-- `dominit0_auth_session_for_user`, as far as its caller sees it. -/
def sessionForUser (system : FacetSystemConfig) (domainId : ℕ) (name : List UInt8) :
    Except FacetError Session :=
  match (system.domains.map (tableAuthority system)).find?
      (fun authority => authority.domainId = domainId) with
  | none => .error .notFound
  | some authority =>
    match authority.users.find? (fun user => user.name = some name) with
    | none => .error .notFound
    | some user => .ok ⟨authority.domainId, user⟩

def userCredentials (user : FacetConfigUser) : Credentials :=
  ⟨user.uid.getD 0, user.gid.getD 0, user.admin.getD false⟩

/-- The answers of a session of an authority. -/
def sessionClaims (session : Session) : SessionClaims where
  credentials := .ok (userCredentials session.user)
  principal := .ok (some
    { name := .ok (session.user.name.getD [])
      human := some (.ok (session.user.homePath.getD []),
        .ok (session.user.nativeShell.getD (ascii "/FacetOS/FacetShell"))) })
  domainId := .ok session.domainId

/-- The user that the configuration names for a terminal. -/
def terminalRunAs (domain : FacetConfigDomain) (terminal : ℕ) : Option (List UInt8) :=
  ((domainTerminals domain)[terminal]?).bind FacetConfigTerminalAssignment.runAs

/-- The session of an initial process; a missing root is no error. -/
def initialSession (domain : CurrentDomain Iid Handle) (terminal : ℕ) :
    Except FacetError (Option Session) :=
  match terminalRunAs domain.parsed terminal with
  | some name => (sessionForUser domain.system domain.domainId name).map some
  | none =>
    if domain.native then .ok none
    else .ok (sessionForUser domain.system domain.domainId (ascii "root")).toOption

def initialRequest (domain : CurrentDomain Iid Handle) (session : Option Session)
    (path : List UInt8) (arguments : List (List UInt8)) (terminal : ℕ)
    (posixRoot : Option (List UInt8)) : LaunchRequest Handle where
  path
  arguments
  session := session.map sessionClaims
  initial := true
  terminalIndex := terminal
  sysvEnvironment := none
  cwd := none
  syntheticPosixCwd := false
  fromPosixView := posixRoot = some [slash]
  nativeCapabilities := domain.native
  posixRoot
  identitySource := none

def managerLaunchInitial (path : List UInt8) (arguments : List (List UInt8)) (terminal : ℕ)
    (posixRoot : Option (List UInt8)) :
    Attempt (ProcessManager Iid Handle) FacetError (RunningProcess Handle) := do
  let domain ← query (fun manager => .ok manager.domain)
  let session ← ofExcept (initialSession domain terminal)
  launchProcess loads (initialRequest domain session path arguments terminal posixRoot)

variable (domain : CurrentDomain Iid Handle)

/-- The root of processes launched in a domain. -/
def configuredRoot : List UInt8 :=
  if domain.native then ascii "/posix" else [slash]

/-- The session must be one of the manager's domain. -/
def checkSessionDomain (session : SessionClaims) : Except FacetError Unit :=
  match session.domainId with
  | .error _ => .error .accessDenied
  | .ok domainId => reject (domainId ≠ domain.domainId) .accessDenied

/-- What the environment object of a caller answers. -/
structure CallerClaims where
  session : Except FacetError (Option SessionClaims)
  sysvEnvironment : Except FacetError (List (List UInt8))
  terminalIndex : Except FacetError ℕ
  cwd : Except FacetError (Option DirectoryHandle)

def launchedRequest (session : SessionClaims)
    (path : List UInt8) (arguments : List (List UInt8)) (terminal : ℕ)
    (sysvEnvironment : Option (List (List UInt8))) (cwd : Option DirectoryHandle) :
    LaunchRequest Handle where
  path
  arguments
  session := some session
  initial := false
  terminalIndex := terminal
  sysvEnvironment
  cwd
  syntheticPosixCwd := false
  fromPosixView := false
  nativeCapabilities := domain.native
  posixRoot := some (configuredRoot domain)
  identitySource := none

/-- A caller is asked for its session, its variables, its terminal and its directory; any
failure is reported as a refusal. -/
def managerLaunch (caller : Option CallerClaims) (path : List UInt8)
    (arguments : List (List UInt8)) :
    Attempt (ProcessManager Iid Handle) FacetError (RunningProcess Handle) := do
  let domain ← query (fun manager => .ok manager.domain)
  let caller ← ofOption .accessDenied caller
  let session ← orFail .accessDenied (ofExcept caller.session)
  let sysvEnvironment ← orFail .accessDenied (ofExcept caller.sysvEnvironment)
  let terminal ← orFail .accessDenied (ofExcept caller.terminalIndex)
  let cwd ← orFail .accessDenied (ofExcept caller.cwd)
  let session ← ofOption .accessDenied session
  let _ ← orFail .accessDenied (ofExcept session.principal)
  ofExcept (checkSessionDomain domain session)
  launchProcess loads (launchedRequest domain session path arguments terminal
    (some sysvEnvironment) cwd)

def managerLaunchOnTerminal (session : Option SessionClaims) (terminal : ℕ) (path : List UInt8)
    (arguments : List (List UInt8)) :
    Attempt (ProcessManager Iid Handle) FacetError (RunningProcess Handle) := do
  let domain ← query (fun manager => .ok manager.domain)
  let session ← ofOption .accessDenied session
  ofExcept (checkSessionDomain domain session)
  launchProcess loads (launchedRequest domain session path arguments terminal none none)

/-- A fresh session replaces the identity and the variables that a child otherwise
inherits. -/
def spawnRequest (parent : RunningProcess Handle) (session : Option SessionClaims)
    (path : List UInt8) (arguments : List (List UInt8)) : LaunchRequest Handle where
  path
  arguments
  session
  initial := false
  terminalIndex := parent.terminalIndex
  sysvEnvironment := if session.isSome then none else some parent.environment.sysvEnvironment
  cwd := some parent.environment.ownedCwd
  syntheticPosixCwd := parent.environment.posixCwdSyntheticEtc
  fromPosixView := true
  nativeCapabilities := parent.environment.nativeCapabilities
  posixRoot := parent.environment.posixNamespaceRoot
  identitySource := if session.isSome then none else some parent.environment

def spawnErrno : FacetError → Errno
  | .accessDenied => .acces
  | .notFound => .noent
  | _ => .io

/-- The pid reported is that of the newest process. -/
def posixSpawnProcess (parent : RunningProcess Handle) (session : Option SessionClaims)
    (path : List UInt8) (arguments : List (List UInt8)) :
    Attempt (ProcessManager Iid Handle) Errno Int32 := fun manager =>
  match launchProcess loads (spawnRequest parent session path arguments) manager with
  | (.error failure, after) => (.error (spawnErrno failure), after)
  | (.ok _, after) => (.ok ((after.processes.getLast?.map RunningProcess.pid).getD (-1)), after)

/-- A replacement is started without a session. -/
def restartRequest (process : RunningProcess Handle) (restart : RestartData) :
    LaunchRequest Handle where
  path := restart.path
  arguments := restart.argv
  session := none
  initial := true
  terminalIndex := process.terminalIndex
  sysvEnvironment := none
  cwd := none
  syntheticPosixCwd := false
  fromPosixView := restart.fromPosixView
  nativeCapabilities := restart.nativeCapabilities
  posixRoot := restart.posixRoot
  identitySource := none

def ProcessManager.update (manager : ProcessManager Iid Handle) (address : ℕ)
    (change : RunningProcess Handle → RunningProcess Handle) : ProcessManager Iid Handle :=
  { manager with processes := manager.processes.modify address change }

/-- The exit of the process at that address; the call itself always succeeds. -/
def lifecycleNotifyExit (address : ℕ) (status : Int32) (manager : ProcessManager Iid Handle) :
    ProcessManager Iid Handle :=
  match manager.processes[address]? with
  | none => manager
  | some process =>
    let exited := manager.update address
      (fun process => { process with exitStatus := status, running := false })
    match process.restart with
    | none => exited
    | some restart =>
      (launchProcess loads (restartRequest process restart) exited).2.update address
        (fun process => { process with platformState := none })

/-! ## The identity of a process -/

/-- `UINT32_MAX` leaves an id as it is.  Without the flag, or without callbacks, the view
refuses; its flag follows the uid only where one is set and the change succeeds. -/
def posixSetCredentials (users : List FacetConfigUser) (environment : ProcessEnvironment Handle)
    (uid gid : UInt32) : Except Errno Unit × ProcessEnvironment Handle :=
  match environment.posixView with
  | none => (.error .perm, environment)
  | some view =>
    let setUid := uid != 0xffffffff
    let setGid := gid != 0xffffffff
    if (setUid = false ∧ setGid = false) ∨ view.admin = false ∨ view.controlled = false then
      (.error .perm, environment)
    else
      match dominit0ProcessEnvironmentSetCredentials users environment uid gid setUid setGid with
      | (false, changed) => (.error .perm, changed)
      | (true, changed) =>
        (.ok (), if setUid then
          { changed with posixView := some { view with admin := uid == 0 } } else changed)

end Launch

end FacetOS.Process
