import FacetOS.Posix.View
import FacetOS.Environment.Services
import FacetOS.Config.Validate

/-!
# Process environments

Every process has an environment of its own: the identity it runs under, the names
it can resolve, the variables it was started with, its current directory and, where
it has one, its POSIX view.  The environment is put together in several steps, each
of which may fail; a failure ends the launch, and the environment is thrown away.
-/

namespace FacetOS.Process

open FileView Initrd Attempts Posix Config Rpc
open Environment (DomainEnvironment BuiltIn ValidName dominit0EnvironmentResolveNamed)

/-! ## Sessions -/

/-- What the principal of a session answers; `human` is missing where it has no
`IHumanUser`, and holds the home path and the shell. -/
structure PrincipalClaims where
  name : Except FacetError (List UInt8)
  human : Option (Except FacetError (List UInt8) × Except FacetError (List UInt8))

/-- What an object that implements `ISession` answers. -/
structure SessionClaims where
  credentials : Except FacetError Credentials
  principal : Except FacetError (Option PrincipalClaims)
  domainId : Except FacetError ℕ

/-- The identity of a process without a session. -/
def rootCredentials : Credentials := ⟨0, 0, true⟩

structure Identity where
  credentials : Credentials
  userName : List UInt8
  homePath : List UInt8
  shellPath : List UInt8

/-- `copy_string` and `copy_facet_string`; everybody reads the copy as a C string. -/
def copyString (text : List UInt8) : Option (List UInt8) :=
  if text = [] ∨ 4096 < text.length then none else some (cString text)

def sessionIdentity : Option SessionClaims → Option Identity
  | none => some
      { credentials := rootCredentials
        userName := ascii "root"
        homePath := ascii "/root"
        shellPath := ascii "/FacetOS/FacetShell" }
  | some session =>
    match session.credentials, session.principal with
    | .ok credentials, .ok (some principal) =>
      match principal.name, principal.human with
      | .ok name, some (.ok home, .ok shell) => do
          return { credentials
                   userName := ← copyString name
                   homePath := ← copyString home
                   shellPath := ← copyString shell }
      | _, _ => none
    | _, _ => none

/-! ## Variables -/

def equalsSign : UInt8 := 61

def sysvEnvironmentMax : ℕ := 128

def addSysvEnvironment (entries : List (List UInt8)) (value : List UInt8) :
    Option (List (List UInt8)) :=
  if equalsSign ∉ value ∨ entries.length = sysvEnvironmentMax then none
  else some (entries ++ [value])

/-- The first entry for the key is replaced; without one, an entry is added. -/
def replaceSysvEnvironment (entries : List (List UInt8)) (key value : List UInt8) :
    Option (List (List UInt8)) :=
  match entries.findIdx? (fun entry => (key ++ [equalsSign]).isPrefixOf entry) with
  | some index => some (entries.set index (key ++ equalsSign :: value))
  | none => addSysvEnvironment entries (key ++ equalsSign :: value)

/-- The variables of a process that is given some. -/
def inheritedVariables (values : List (List UInt8)) : Option (List (List UInt8)) :=
  if sysvEnvironmentMax < values.length then none
  else values.foldlM (fun entries value =>
    if value = [] ∨ 4096 < value.length ∨ facetUtf8IsValid value = false then none
    else addSysvEnvironment entries (cString value)) []

/-- The variables of a process that is given none; the limits are the sizes of the
buffers that they are printed into. -/
def defaultVariables (identity : Identity) : Option (List (List UInt8)) :=
  let user := ascii "USER=" ++ identity.userName
  let home := ascii "HOME=" ++ identity.homePath
  let shell := ascii "SHELL=" ++ identity.shellPath
  if 256 ≤ user.length ∨ 4352 ≤ home.length ∨ 4352 ≤ shell.length then none
  else [ascii "PATH=/FacetOS", ascii "PWD=/", user, home, shell].foldlM addSysvEnvironment []

/-! ## Names -/

/-- What a name of a process environment leads to. -/
inductive ServiceObject (Handle : Type)
  | delegated (handle : Handle)
  | files (store : ℕ)
  | session (claims : SessionClaims)
  | directory (handle : DirectoryHandle)
  | posixView
  | terminalControl
  | terminalInput
  | terminalOutput
  | lifecycle
  | pageAllocator

structure ProcessBinding (Handle : Type) where
  name : List UInt8
  object : ServiceObject Handle

/-- `PROCESS_BINDING_MAX` -/
def processBindingMax : ℕ := 16

section Bindings

variable {Handle : Type} (bindings : List (ProcessBinding Handle))

def findBinding (name : List UInt8) : Option (ProcessBinding Handle) :=
  if ¬ValidName name then none else bindings.find? (fun binding => binding.name = name)

def bind (name : List UInt8)
    (object : ServiceObject Handle) : Option (List (ProcessBinding Handle)) :=
  if ¬ValidName name ∨ bindings.length = processBindingMax then none
  else if (findBinding bindings name).isSome then none
  else some (bindings ++ [⟨name, object⟩])

/-- Bind a name if the condition holds. -/
def bindIf (condition : Bool) (bindings : List (ProcessBinding Handle)) (name : List UInt8)
    (object : ServiceObject Handle) : Option (List (ProcessBinding Handle)) :=
  if condition then bind bindings name object else some bindings

/-- Pass on those of the names that the domain's environment resolves. -/
def delegate {Iid : Type} (interfaces : BuiltIn → Iid)
    (environment : DomainEnvironment Iid Handle) (bindings : List (ProcessBinding Handle))
    (names : List (List UInt8)) : Option (List (ProcessBinding Handle)) :=
  names.foldlM (fun bindings name =>
    match dominit0EnvironmentResolveNamed interfaces environment name with
    | .error _ => some bindings
    | .ok (_, handle) => bind bindings name (.delegated handle)) bindings

/-- Put another directory under the name `cwd`. -/
def rebindCwd (directory : DirectoryHandle) : List (ProcessBinding Handle) :=
  bindings.map (fun binding =>
    if binding.name = ascii "cwd" then { binding with object := .directory directory }
    else binding)

end Bindings

/-! ## Environments -/

/-- `CurrentDomain` with the parts of the system that a launch reads; `terminals` lists
the assignments whose terminal is usable. -/
structure CurrentDomain (Iid Handle : Type) where
  system : FacetSystemConfig
  parsed : FacetConfigDomain
  initrd : FacetInitrd
  interfaces : BuiltIn → Iid
  environment : DomainEnvironment Iid Handle
  terminals : List ℕ

/-- `Dominit0ProcessEnvironment` -/
structure ProcessEnvironment (Handle : Type) where
  bindings : List (ProcessBinding Handle)
  ownedSession : Option SessionClaims
  nativeCapabilities : Bool
  posixView : Option PosixView
  posixNamespaceRoot : Option (List UInt8)
  posixCwdSyntheticEtc : Bool
  sysvEnvironment : List (List UInt8)
  ownedCwd : DirectoryHandle
  credentialFiles : ℕ
  credentials : Credentials
  terminalIndex : ℕ

section Environments

variable {Iid Handle : Type} (environment : ProcessEnvironment Handle)

def resolve (name : List UInt8) : Except FacetError (ServiceObject Handle) :=
  if ¬ValidName name then .error .invalidArgument
  else
    match findBinding environment.bindings name with
    | none => .error .notFound
    | some binding => .ok binding.object

/-! ## Creation -/

/-- The identity comes from the parent where there is one; the texts beside it are then
not used. -/
def createdIdentity (session : Option SessionClaims)
    (identitySource : Option (ProcessEnvironment Handle)) : Option Identity :=
  match identitySource with
  | some parent => some
      { credentials := parent.credentials
        userName := ascii "root"
        homePath := ascii "/"
        shellPath := ascii "/bin/sh" }
  | none => sessionIdentity session

/-- A given directory is opened again, by its path, in the store of the process. -/
def openCwd (store : ℕ) : Option DirectoryHandle → Attempt Stores Unit NodeHandle
  | none => orFail () (storeOpenIn store [slash] true)
  | some directory => do
      let path ← orFail () (query (directoryPath · directory))
      orFail () (storeOpenIn store path true)

def delegatedNames : List (List UInt8) := [ascii "logger", ascii "processes"]

def bootstrapDelegatedNames : List (List UInt8) := [ascii "auth", ascii "security"]

def dominit0ProcessEnvironmentCreate (domain : CurrentDomain Iid Handle)
    (session : Option SessionClaims) (bootstrapAuthority nativeCapabilities : Bool)
    (sysvEnvironment : Option (List (List UInt8))) (cwd : Option DirectoryHandle)
    (identitySource : Option (ProcessEnvironment Handle)) :
    Attempt Stores Unit (ProcessEnvironment Handle) := do
  let identity ← ofOption () (createdIdentity session identitySource)
  let sysv ← ofOption () (match sysvEnvironment with
    | some values => inheritedVariables values
    | none => defaultVariables identity)
  let services ← ofOption () (delegate domain.interfaces domain.environment []
    (if nativeCapabilities then delegatedNames else []))
  let services ← ofOption () (delegate domain.interfaces domain.environment services
    (if bootstrapAuthority ∧ nativeCapabilities then bootstrapDelegatedNames else []))
  let store ← dominit0CredentialFileStoreCreate domain.initrd domain.system.users
    identity.credentials
  let services ← ofOption () (bind services (ascii "files") (.files store))
  let services ← ofOption () (match session with
    | none => some services
    | some claims => bindIf nativeCapabilities services (ascii "session") (.session claims))
  let directory ← openCwd store cwd
  let services ← ofOption () (bind services (ascii "cwd") (.directory (.node directory)))
  return {
    bindings := services
    ownedSession := session
    nativeCapabilities
    posixView := none
    posixNamespaceRoot := none
    posixCwdSyntheticEtc := false
    sysvEnvironment := sysv
    ownedCwd := .node directory
    credentialFiles := store
    credentials := identity.credentials
    terminalIndex := 0 }

/-! ## Current directory -/

def setCwd (directory : DirectoryHandle) : Except FacetError (ProcessEnvironment Handle) :=
  match findBinding environment.bindings (ascii "cwd") with
  | none => .error .invalidHandle
  | some _ => .ok { environment with
      ownedCwd := directory
      bindings := rebindCwd environment.bindings directory }

def syncPosixCwd (directory : DirectoryHandle)
    (syntheticEtc : Bool) : Option (ProcessEnvironment Handle) :=
  if syntheticEtc then some { environment with posixCwdSyntheticEtc := true }
  else
    match setCwd environment directory with
    | .error _ => none
    | .ok changed => some { changed with posixCwdSyntheticEtc := false }

def setPosixNamespaceRoot (path : List UInt8) : Option (ProcessEnvironment Handle) :=
  if path.head? ≠ some slash then none
  else some { environment with posixNamespaceRoot := some path }

def setPosixRoot (path : List UInt8) : Attempt Stores Unit (ProcessEnvironment Handle) := do
  let environment ← ofOption () (setPosixNamespaceRoot environment path)
  let root ← orFail () (storeOpenIn environment.credentialFiles path true)
  match setCwd environment (.node root) with
  | .error _ => ofOption () none
  | .ok changed => return changed

/-! ## Bindings made by a launch -/

/-- The root of a new view. -/
def rootedView (view : PosixView) : Attempt Stores Unit PosixView :=
  match environment.posixNamespaceRoot with
  | none => return view
  | some path => do
      let root ← orFail () (storeOpenIn environment.credentialFiles path true)
      let physical ← query (fun stores => .ok (nodePath stores root))
      ofOption () (dominit0PosixViewSetRoot view root physical)

/-- The texts of the account files in the store of the process. -/
def credentialTexts (stores : Stores) (index : ℕ) : Except Unit (List UInt8 × List UInt8) :=
  match stores[index]? with
  | none => .error ()
  | some store => .ok (store.virtualPasswd, store.virtualShadow)

/-- Nobody has had the chance to set another directory yet. -/
def createView : Attempt Stores Unit PosixView := do
  let cwd ← ofOption () environment.ownedCwd.node?
  let physical ← query (fun stores => .ok (nodePath stores cwd))
  let (passwd, shadow) ← query (credentialTexts · environment.credentialFiles)
  let view := dominit0PosixViewSetCredentialFiles (dominit0PosixViewCreate cwd physical)
    passwd shadow defaultFstab
  let view ← rootedView environment view
  ofOption () (dominit0PosixViewBindCwdSync view environment.posixCwdSyntheticEtc)

/-- Give a process its POSIX view if it has no native capabilities or has a root. -/
def attachView : Attempt Stores Unit (ProcessEnvironment Handle) :=
  if environment.nativeCapabilities ∧ environment.posixNamespaceRoot.isNone then
    return environment
  else do
    let view ← createView environment
    let services ← ofOption () (bind environment.bindings (ascii "posix") .posixView)
    return { environment with posixView := some view, bindings := services }

def dominit0ProcessEnvironmentBindTerminal : Attempt Stores Unit (ProcessEnvironment Handle) := do
  let environment ← attachView environment
  let native := environment.nativeCapabilities
  let services := environment.bindings
  let services ← ofOption () (bindIf native services (ascii "terminal.control") .terminalControl)
  let services ← ofOption () (bindIf native services (ascii "stdin") .terminalInput)
  let services ← ofOption () (bindIf native services (ascii "stdout") .terminalOutput)
  let services ← ofOption () (bindIf native services (ascii "stderr") .terminalOutput)
  return { environment with bindings := services }

def setVariable (key value : List UInt8) : Option (ProcessEnvironment Handle) := do
  let sysv ← replaceSysvEnvironment environment.sysvEnvironment key value
  return { environment with sysvEnvironment := sysv }

def setTerminalName (name : List UInt8) : Option (ProcessEnvironment Handle) :=
  if name = [] then none else setVariable environment (ascii "FACET_TERMINAL") name

def setDomainId (domainId : ℕ) : Option (ProcessEnvironment Handle) :=
  setVariable environment (ascii "FACET_DOMAIN_ID") (decimal domainId)

def bindPosixProcessControl (domainId : ℕ)
    (pid : Int32) (admin : Bool) : Option (ProcessEnvironment Handle) := do
  let view ← environment.posixView
  return { environment with
    posixView := some (dominit0PosixViewBindProcessControl view domainId pid admin) }

/-- The view takes the handle; native processes also find it under its name. -/
def bindLifecycle : Option (ProcessEnvironment Handle) :=
  match environment.posixView with
  | none =>
    if environment.nativeCapabilities then do
      let services ← bind environment.bindings (ascii "process.lifecycle") .lifecycle
      return { environment with bindings := services }
    else none
  | some view => do
      let view ← dominit0PosixViewBindLifecycle view
      let services ← bindIf environment.nativeCapabilities environment.bindings
        (ascii "process.lifecycle") .lifecycle
      return { environment with posixView := some view, bindings := services }

def bindPageAllocator : Option (ProcessEnvironment Handle) :=
  if environment.nativeCapabilities then do
    let services ← bind environment.bindings (ascii "memory.pages") .pageAllocator
    return { environment with bindings := services }
  else do
    let view ← environment.posixView
    let view ← dominit0PosixViewBindPageAllocator view
    return { environment with posixView := some view }

/-! ## Changing the identity -/

def configuredUser (users : List FacetConfigUser) (uid gid : UInt32) : Option FacetConfigUser :=
  users.find? (fun user => user.uid.getD 0 = uid ∧ user.gid.getD 0 = gid)

/-- Replace one variable after the other; those before a failure stay replaced. -/
def replaceVariables : List (List UInt8 × Option (List UInt8)) → List (List UInt8) →
    Bool × List (List UInt8)
  | [], entries => (true, entries)
  | (key, value) :: rest, entries =>
    match value.bind (replaceSysvEnvironment entries key) with
    | none => (false, entries)
    | some changed => replaceVariables rest changed

def userVariables (user : FacetConfigUser) : List (List UInt8 × Option (List UInt8)) :=
  [(ascii "USER", user.name), (ascii "HOME", user.homePath), (ascii "SHELL", user.posixShell),
    (ascii "PWD", user.homePath)]

/-- What a call asks for, over what the process has. -/
def changedCredentials (old : Credentials) (uid gid : UInt32) (setUid setGid : Bool) :
    Credentials :=
  let uid := if setUid then uid else old.uid
  ⟨uid, if setGid then gid else old.gid, uid == 0⟩

/-- Whether it succeeds, and what it leaves: the identity has changed even if the
variables could not be. -/
def dominit0ProcessEnvironmentSetCredentials (users : List FacetConfigUser)
    (environment : ProcessEnvironment Handle) (uid gid : UInt32) (setUid setGid : Bool) :
    Bool × ProcessEnvironment Handle :=
  if setUid = false ∧ setGid = false then (false, environment)
  else
    let credentials := changedCredentials environment.credentials uid gid setUid setGid
    match configuredUser users credentials.uid credentials.gid with
    | none => (true, { environment with credentials })
    | some user =>
      let (replaced, sysv) :=
        replaceVariables (userVariables user) environment.sysvEnvironment
      (replaced, { environment with credentials, sysvEnvironment := sysv })

end Environments

end FacetOS.Process
