import FacetOS.Config.Lexer
import FacetOS.Core.Passes

/-!
# Validating the configuration

`validate_required` goes over the tables of a parsed configuration.  It checks
that the required keys are there and that names are not used twice, and it
replaces the references between tables by positions in them.
-/

namespace FacetOS.Config

open Passes

/-- What validation reports has no position in the text. -/
def invalid (category : FacetConfigDiagnosticCategory) (context : List UInt8)
    (message : String) : FacetConfigDiagnostic :=
  diagnose category 0 0 context message

/-! ## Sinks, seats and sources -/

def validateSink (earlier : List FacetConfigLoggingSinkDefinition)
    (sink : FacetConfigLoggingSinkDefinition) :
    Except FacetConfigDiagnostic FacetConfigLoggingSinkDefinition := do
  let missing :=
    invalid .schema (ascii "logging_sinks") "sink requires name, type, and required"
  let name ← required sink.name missing
  let type ← required sink.type missing
  let _ ← required sink.required missing
  reject (name = [] ∨ type = [])
    (invalid .schema (ascii "logging_sinks") "sink name and type must not be empty")
  reject (∃ other ∈ earlier, other.name = some name)
    (invalid .duplicate name "duplicate logging sink name")
  return sink

def validateSeatTerminal (seat : List UInt8) (earlier : List (List UInt8))
    (terminal : List UInt8) : Except FacetConfigDiagnostic (List UInt8) := do
  reject (terminal = [] ∨ byte '.' ∈ terminal)
    (invalid .schema seat "terminal name must be nonempty and contain no dot")
  reject (terminal ∈ earlier) (invalid .duplicate terminal "duplicate terminal in seat")
  return terminal

def validateSeat (earlier : List FacetConfigSeatDefinition) (seat : FacetConfigSeatDefinition) :
    Except FacetConfigDiagnostic FacetConfigSeatDefinition := do
  let missing :=
    invalid .schema (ascii "seats") "seat requires name, type, server, and terminals"
  let name ← required seat.name missing
  let _ ← required seat.type missing
  let server ← required seat.server missing
  let terminals ← required seat.terminals missing
  reject (name = [] ∨ server = [] ∨ server.head? ≠ some (byte '/') ∨ byte '.' ∈ name)
    (invalid .schema (ascii "seats")
      "seat name must contain no dot and server must be an absolute path")
  reject (∃ other ∈ earlier, other.name = some name)
    (invalid .duplicate name "duplicate seat name")
  let terminals ← mapEach (validateSeatTerminal name) [] terminals
  return { seat with terminals := some terminals }

def validateSource (earlier : List FacetConfigAuthenticationSource)
    (source : FacetConfigAuthenticationSource) :
    Except FacetConfigDiagnostic FacetConfigAuthenticationSource := do
  let missing := invalid .schema (ascii "authentication_sources")
    "source requires name, provider_domain, type, and required"
  let name ← required source.name missing
  let _ ← required source.providerDomainId missing
  let type ← required source.type missing
  let _ ← required source.required missing
  reject (name = [] ∨ type = [])
    (invalid .schema (ascii "authentication_sources") "source name and type must not be empty")
  reject (∃ other ∈ earlier, other.name = some name)
    (invalid .duplicate name "duplicate authentication source name")
  return source

/-! ## Users -/

def validPasswordHash (text : List UInt8) : Bool :=
  let rest := text.drop 3
  let digest := rest.dropWhile (fun c => c ≠ byte '$')
  text.take 3 = ascii "$5$" ∧ digest ≠ [] ∧ digest.length ≠ rest.length ∧ digest.tail ≠ []

/-- The checks of one user; the answer is the user's name. -/
def validateUser (context : List UInt8) (user : FacetConfigUser) :
    Except FacetConfigDiagnostic (List UInt8) := do
  let missing := invalid .schema context
    "user requires name, supported crypt password_hash, admin, uid, gid, and home_path"
  let name ← required user.name missing
  let hash ← required user.passwordHash missing
  let _ ← required user.admin missing
  let _ ← required user.uid missing
  let _ ← required user.gid missing
  let home ← required user.homePath missing
  reject (name = [] ∨ validPasswordHash hash = false) missing
  reject (home.head? ≠ some (byte '/')) (invalid .schema name "home_path must be absolute")
  reject ((∃ shell ∈ user.nativeShell, shell.head? ≠ some (byte '/'))
      ∨ (∃ shell ∈ user.posixShell, shell.head? ≠ some (byte '/')))
    (invalid .schema name "shell paths must be absolute")
  return name

def requiredRootHash : List UInt8 :=
  ascii "$5$facet$j7FgoXidvJl10CTaW0nguGP3ZnvKnqS3/IHmDVliPQ9"

def validateGlobalUser (earlier : List FacetConfigUser) (user : FacetConfigUser) :
    Except FacetConfigDiagnostic FacetConfigUser := do
  let name ← validateUser (ascii "users") user
  reject (∃ other ∈ earlier, other.name = some name)
    (invalid .duplicate name "duplicate global user")
  reject (name = ascii "root" ∧ ¬(user.admin = some true ∧ user.uid = some 0
      ∧ user.gid = some 0 ∧ user.passwordHash = some requiredRootHash))
    (invalid .schema (ascii "root")
      "root must be uid/gid 0, admin, with the required development password hash")
  return user

def validateDomainUser (globalUsers : List FacetConfigUser) (domain : List UInt8)
    (earlier : List FacetConfigUser) (user : FacetConfigUser) :
    Except FacetConfigDiagnostic FacetConfigUser := do
  let name ← validateUser domain user
  reject (∃ other ∈ globalUsers, other.name = some name)
    (invalid .duplicate name "domain user duplicates global user")
  reject (∃ other ∈ earlier, other.name = some name)
    (invalid .duplicate name "duplicate domain user")
  return user

/-! ## Domains -/

/-- Replace a sink's name by its position among the definitions. -/
def validateDomainSink (sinks : List FacetConfigLoggingSinkDefinition)
    (earlier : List FacetConfigDomainSink) (use : FacetConfigDomainSink) :
    Except FacetConfigDiagnostic FacetConfigDomainSink := do
  let index ← required (sinks.findIdx? (fun sink => sink.name == some use.name))
    (invalid .unresolvedReference use.name "unknown logging sink")
  reject (∃ other ∈ earlier, other.name = use.name)
    (invalid .duplicate use.name "domain references a logging sink twice")
  return { use with sinkDefinitionIndex := index }

/-- The keys a terminal gives must be those of its domain's personality; only
`run_as` is optional. -/
def TerminalKeys (personality : FacetConfigPersonality)
    (assignment : FacetConfigTerminalAssignment) : Prop :=
  match personality with
  | .native =>
    assignment.reference.isSome ∧ assignment.view.isSome ∧ assignment.initialProcess.isSome
      ∧ assignment.deviceName = none
  | _ =>
    assignment.reference.isSome ∧ assignment.deviceName.isSome ∧ assignment.view = none
      ∧ assignment.initialProcess = none

instance (personality : FacetConfigPersonality) (assignment : FacetConfigTerminalAssignment) :
    Decidable (TerminalKeys personality assignment) :=
  match personality with
  | .native => inferInstanceAs (Decidable (_ ∧ _ ∧ _ ∧ _))
  | .posix => inferInstanceAs (Decidable (_ ∧ _ ∧ _ ∧ _))
  | .vm => inferInstanceAs (Decidable (_ ∧ _ ∧ _ ∧ _))

def terminalKeysMessage (personality : FacetConfigPersonality) : String :=
  if personality = .native then "native terminal requires terminal, view, and initial_process"
  else "posix terminal requires terminal and device"

/-- The two parts of a reference `seat.terminal`. -/
def splitReference (reference : List UInt8) : Option (List UInt8 × List UInt8) :=
  let seat := reference.takeWhile (fun c => c ≠ byte '.')
  match reference.dropWhile (fun c => c ≠ byte '.') with
  | [] => none
  | _ :: terminal =>
    if seat = [] ∨ terminal = [] ∨ byte '.' ∈ terminal then none else some (seat, terminal)

/-- Where the seat has this terminal, if it is the seat of that name. -/
def terminalIndex (seat terminal : List UInt8) (definition : FacetConfigSeatDefinition) :
    Option ℕ :=
  if definition.name = some seat then (definition.terminals.getD []).idxOf? terminal else none

/-- The loop over the seats goes on after a match, so the last one counts. -/
def locateTerminal (seats : List FacetConfigSeatDefinition) (seat terminal : List UInt8) :
    Option (ℕ × ℕ) :=
  (seats.zipIdx.filterMap (fun (definition, index) =>
    (terminalIndex seat terminal definition).map (fun position => (index, position)))).getLast?

def domainUsers (domain : FacetConfigDomain) : List FacetConfigUser := domain.users.getD []

def domainTerminals (domain : FacetConfigDomain) : List FacetConfigTerminalAssignment :=
  domain.terminals.getD []

def validateTerminal (config : FacetSystemConfig) (assigned : List FacetConfigTerminalAssignment)
    (domain : List UInt8) (personality : FacetConfigPersonality) (users : List FacetConfigUser)
    (earlier : List FacetConfigTerminalAssignment) (assignment : FacetConfigTerminalAssignment) :
    Except FacetConfigDiagnostic FacetConfigTerminalAssignment := do
  reject (¬TerminalKeys personality assignment)
    (invalid .schema domain (terminalKeysMessage personality))
  let reference ← required assignment.reference
    (invalid .schema domain (terminalKeysMessage personality))
  reject (reference = [] ∨ assignment.initialProcess = some []
      ∨ assignment.deviceName = some [])
    (invalid .schema domain "terminal assignment strings must not be empty")
  reject (∃ name ∈ assignment.runAs, ∀ user ∈ config.users ++ users, user.name ≠ some name)
    (invalid .unresolvedReference (assignment.runAs.getD []) "unknown run_as user")
  reject (personality = .posix ∧ ∃ other ∈ earlier, other.deviceName = assignment.deviceName)
    (invalid .duplicate (assignment.deviceName.getD [])
      "duplicate posix domain-local device name")
  let (seat, terminal) ← required (splitReference reference)
    (invalid .schema reference "terminal reference must be seat.terminal")
  let (seatIndex, terminalIndex) ← required (locateTerminal config.seats seat terminal)
    (invalid .unresolvedReference reference "unknown seat terminal")
  reject (∃ other ∈ assigned ++ earlier,
      other.seatIndex = seatIndex ∧ other.terminalIndex = terminalIndex)
    (invalid .duplicate reference "terminal is assigned to more than one domain")
  return { assignment with seatIndex, terminalIndex }

/-- A pair of domains may share neither id nor name. -/
def rejectSameDomain (id : ℕ) (name : List UInt8) (other : FacetConfigDomain) :
    Except FacetConfigDiagnostic Unit := do
  reject (other.id = some id) (invalid .duplicate name "duplicate domain id")
  reject (other.name = some name) (invalid .duplicate name "duplicate domain name")

/-- Replace the name of the authentication source, if any, by its position. -/
def validateDomainSource (config : FacetSystemConfig) (domain : FacetConfigDomain) :
    Except FacetConfigDiagnostic ℕ :=
  match domain.authenticationSource with
  | none => .ok domain.authenticationSourceIndex
  | some name =>
    required (config.authenticationSources.findIdx? (fun source => source.name == some name))
      (invalid .unresolvedReference name "unknown authentication source")

def validateDomain (config : FacetSystemConfig) (earlier : List FacetConfigDomain)
    (domain : FacetConfigDomain) : Except FacetConfigDiagnostic FacetConfigDomain := do
  let missing := invalid .schema (ascii "domains") "domain is missing a required key"
  let id ← required domain.id missing
  let name ← required domain.name missing
  let personality ← required domain.personality missing
  let _ ← required domain.domainManager missing
  let sinks ← required domain.loggingSinks missing
  let terminals ← required domain.terminals missing
  let initrd ← required domain.initrd missing
  reject (name = [])
    (invalid .schema (ascii "domains.name") "domain name must not be empty")
  reject (initrd = [] ∨ byte '/' ∈ initrd)
    (invalid .schema name "domain initrd must be a multiboot module name")
  reject (∃ other ∈ earlier, other.initrd = some initrd)
    (invalid .duplicate initrd "initrd may be assigned to only one domain")
  let users ← mapEach (validateDomainUser config.users name) [] (domainUsers domain)
  reject (personality = .vm)
    (invalid .schema name "vm domains are not supported by this configuration schema")
  earlier.forM (rejectSameDomain id name)
  let sinks ← mapEach (validateDomainSink config.loggingSinks) [] sinks
  reject (sinks = [] ∨ terminals = [])
    (invalid .schema name "domain requires at least one logging sink and terminal")
  reject (personality = .native ∧ domain.pid1 ≠ none)
    (invalid .schema name "native domain must not specify pid1")
  reject (personality = .posix ∧ (domain.pid1 = none ∨ domain.pid1 = some []))
    (invalid .schema name "posix domain requires pid1")
  let terminals ← mapEach (validateTerminal config (earlier.flatMap domainTerminals) name
    personality users) [] terminals
  let authenticationSourceIndex ← validateDomainSource config domain
  return { domain with
    users := domain.users.map (fun _ => users)
    loggingSinks := some sinks
    terminals := some terminals
    authenticationSourceIndex }

/-- Replace the provider's id by the position of the domain. -/
def validateProvider (domains : List FacetConfigDomain)
    (_earlier : List FacetConfigAuthenticationSource) (source : FacetConfigAuthenticationSource) :
    Except FacetConfigDiagnostic FacetConfigAuthenticationSource := do
  let index ← required (domains.findIdx? (fun domain => domain.id == source.providerDomainId))
    (invalid .unresolvedReference (source.name.getD [])
      "authentication provider domain does not exist")
  return { source with providerDomainIndex := index }

/-! ## The configuration -/

/-- Every domain with id 0 stores its position, so the last one counts. -/
def rootPositions (domains : List FacetConfigDomain) : List ℕ :=
  domains.findIdxs (fun domain => domain.id == some 0)

def validateRequired (facetSeen : Bool) (config : FacetSystemConfig) :
    Except FacetConfigDiagnostic FacetSystemConfig := do
  reject (facetSeen = false ∨ config.version ≠ 1)
    (invalid .schema (ascii "facet.version") "[facet] version = 1 is required")
  let loggingSinks ← mapEach validateSink [] config.loggingSinks
  let seats ← mapEach validateSeat [] config.seats
  let authenticationSources ← mapEach validateSource [] config.authenticationSources
  let users ← mapEach validateGlobalUser [] config.users
  reject (∀ user ∈ users, user.name ≠ some (ascii "root"))
    (invalid .schema (ascii "users") "a global root user is required")
  reject (config.domains = [])
    (invalid .schema (ascii "domains") "at least one domain is required")
  let config := { config with loggingSinks, seats, authenticationSources, users }
  let domains ← mapEach (validateDomain config) [] config.domains
  reject ((rootPositions domains).length ≠ 1)
    (invalid .schema (ascii "domains") "exactly one domain must have id 0")
  let authenticationSources ← mapEach (validateProvider domains) [] config.authenticationSources
  reject (config.seatInitrd = none ∨ config.seatInitrd = some [])
    (invalid .schema (ascii "facet.seat_initrd")
      "[facet] seat_initrd is required and must not be empty")
  return { config with
    authenticationSources
    domains
    rootIndex := (rootPositions domains).getLast?.getD config.rootIndex }

end FacetOS.Config
