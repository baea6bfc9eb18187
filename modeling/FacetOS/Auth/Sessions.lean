import FacetOS.Auth.Authority

/-!
# Sessions

Clients authenticate by name and password, and turn the proof they are given into
a session; the launcher makes sessions for the terminals it starts.  A proof is
any handle: the authority asks the object behind it for a domain and a principal,
and the principal for its name.
-/

namespace FacetOS.Auth

open Rpc Config

/-! ## Proofs of identity -/

/-- What the object behind a handle, and the principal it returns, answer. -/
structure Claims where
  /-- Whether a principal is returned at all. -/
  principal : Except FacetError Bool
  domainId : Except FacetError ℕ
  name : Except FacetError (List UInt8)

/-- A handle that a client passes: an authenticated user of an authority, or an
object of the client's own. -/
inductive ProofHandle
  | authenticated (authority user : ℕ)
  | client (claims : Claims)

def findAuthenticatedUser (authority : AuthAuthority) (claims : Claims) :
    Option FacetConfigUser :=
  match claims.principal, claims.domainId, claims.name with
  | .ok true, .ok domainId, .ok name =>
    if domainId = authority.domainId then authority.users.find? fun user => user.name = some name
    else none
  | _, _, _ => none

variable {index position : ℕ} {name password : List UInt8} {user : FacetConfigUser}

section Authentication

variable (crypt : List UInt8 → List UInt8 → Option (List UInt8))

/-- The stored hash is compared with as many bytes of the computed one. -/
def passwordMatches (user : FacetConfigUser) (password : List UInt8) : Bool :=
  match user.passwordHash with
  | none => false
  | some hash =>
    match crypt (cString password) hash with
    | none => false
    | some actual => decide (hash <+: actual)

/-- The position of the user; only the first one of that name is tried. -/
def authenticate (authority : AuthAuthority) (name password : List UInt8) :
    Except FacetError ℕ :=
  if 4096 < password.length then .error .invalidArgument
  else
    match authority.users.findIdx? fun user => user.name = some name with
    | none => .error .accessDenied
    | some index =>
      if passwordMatches crypt (authority.users.getD index default) password then .ok index
      else .error .accessDenied

/-! ## The authorities of a system -/

/-- The authorities, and the proofs that clients have been given. -/
structure AuthState where
  authorities : List AuthAuthority
  issued : List (ℕ × ℕ)

variable (system : FacetSystemConfig)

def startState : AuthState where
  authorities := system.domains.map (initializeAuthority system)
  issued := []

variable (state : AuthState)

/-- What a handle answers.  A client has no handle of an authenticated user but one it
was given. -/
def claimsOf : ProofHandle → Claims
  | .client claims => claims
  | .authenticated index user =>
    match state.authorities[index]? with
    | none => ⟨.error .invalidHandle, .error .invalidHandle, .error .invalidHandle⟩
    | some authority =>
      if (index, user) ∈ state.issued then
        { principal := .ok true
          domainId := .ok authority.domainId
          name := .ok ((authority.users.getD user default).name.getD []) }
      else ⟨.error .invalidHandle, .error .invalidHandle, .error .invalidHandle⟩

def AuthAuthority.addSession (authority : AuthAuthority) (user : FacetConfigUser) : AuthAuthority :=
  { authority with sessions := ⟨authority.domainId, user⟩ :: authority.sessions }

def createSessionForUser (index : ℕ) (user : FacetConfigUser) : AuthState :=
  { state with authorities := state.authorities.modify index (·.addSession user) }

def securityCreate (index : ℕ) (handle : ProofHandle) : AuthState :=
  match state.authorities[index]? with
  | none => state
  | some authority =>
    match findAuthenticatedUser authority (claimsOf state handle) with
    | none => state
    | some user => createSessionForUser state index user

/-- A successful call of `authenticate` hands out a proof. -/
def issueProof (index : ℕ) (name password : List UInt8) : AuthState :=
  match state.authorities[index]? with
  | none => state
  | some authority =>
    match authenticate crypt authority name password with
    | .error _ => state
    | .ok user => { state with issued := (index, user) :: state.issued }

/-- The first authority of a domain. -/
def authorityOf (domainId : ℕ) : Option ℕ :=
  state.authorities.findIdx? fun authority => authority.domainId = domainId

def dominit0AuthSessionForUser (domainId : ℕ) (name : List UInt8) : AuthState :=
  match authorityOf state domainId with
  | none => state
  | some index =>
    match (state.authorities[index]?).bind fun authority =>
      authority.users.find? fun user => user.name = some name with
    | none => state
    | some user => createSessionForUser state index user

/-- `authenticate` and `create_session` in one; the proof is released again. -/
def dominit0AuthenticateUser (domainId : ℕ) (name password : List UInt8) : AuthState :=
  match authorityOf state domainId with
  | none => state
  | some index =>
    match (state.authorities[index]?).map fun authority =>
      authenticate crypt authority name password with
    | some (.ok user) =>
      let proven := { state with issued := (index, user) :: state.issued }
      { securityCreate proven index (.authenticated index user) with issued := state.issued }
    | _ => state

/-- The user for whom `manager_launch_initial` wants a session: the terminal's, or root
where the process has no native capabilities. -/
def initialUser (domain : FacetConfigDomain) (terminal : ℕ) : Option (List UInt8) :=
  match ((domainTerminals domain)[terminal]?).bind FacetConfigTerminalAssignment.runAs with
  | some name => some name
  | none => if domain.personality = some .native then none else some (ascii "root")

/-! ## Runs -/

inductive AuthEvent
  | authenticate (authority : ℕ) (name password : List UInt8)
  | createSession (authority : ℕ) (handle : ProofHandle)
  | authenticateUser (domainId : ℕ) (name password : List UInt8)
  | launchInitial (domain terminal : ℕ)

def AuthEvent.step : AuthEvent → AuthState
  | .authenticate index name password => issueProof crypt state index name password
  | .createSession index handle => securityCreate state index handle
  | .authenticateUser domainId name password =>
    dominit0AuthenticateUser crypt state domainId name password
  | .launchInitial index terminal =>
    match system.domains[index]? with
    | none => state
    | some domain =>
      match initialUser domain terminal with
      | none => state
      | some name => dominit0AuthSessionForUser state (domain.id.getD 0) name

def stateAfter (events : List AuthEvent) : AuthState :=
  events.foldl (AuthEvent.step crypt system) (startState system)

/-- The event entitles its caller to a session: the user of the session authenticates in
the session's domain, or the launcher starts a terminal there as that user or root. -/
def AuthEvent.Entitles (session : Session) : AuthEvent → Prop
  | .authenticate index name password =>
    ∃ domain user, system.domains[index]? = some domain ∧ domain.id.getD 0 = session.domainId
      ∧ Auth.authenticate crypt (initializeAuthority system domain) name password = .ok user
      ∧ (system.users ++ domainUsers domain)[user]? = some session.user
  | .createSession _ _ => False
  | .authenticateUser domainId name password =>
    ∃ domain user, domain ∈ system.domains ∧ domain.id.getD 0 = session.domainId
      ∧ domainId = session.domainId
      ∧ Auth.authenticate crypt (initializeAuthority system domain) name password = .ok user
      ∧ (system.users ++ domainUsers domain)[user]? = some session.user
  | .launchInitial index terminal =>
    ∃ domain, system.domains[index]? = some domain ∧ domain.id.getD 0 = session.domainId
      ∧ ∃ name, initialUser domain terminal = some name ∧ session.user.name = some name

/-- Every session that exists was preceded by an event that entitles to it. -/
def SessionsEntitled (events : List AuthEvent) : Prop :=
  ∀ authority ∈ (stateAfter crypt system events).authorities, ∀ session ∈ authority.sessions,
    ∃ event ∈ events, event.Entitles crypt system session

/-- A client that makes up its own proof names no user of the authority in its
domain. -/
def AuthEvent.Honest : AuthEvent → Prop
  | .createSession index (.client claims) => ∀ domain, system.domains[index]? = some domain →
      findAuthenticatedUser (initializeAuthority system domain) claims = none
  | _ => True

/-! ## What does not change -/

/-- The authority as it was made. -/
def AuthAuthority.bare (authority : AuthAuthority) : AuthAuthority :=
  { authority with sessions := [] }

/-- Domain ids and user tables are those of the configuration. -/
def SameTables : Prop :=
  state.authorities.map AuthAuthority.bare = system.domains.map (initializeAuthority system)

variable {system : FacetSystemConfig} {state : AuthState} {events : List AuthEvent}

omit crypt in
theorem SameTables.authority (htables : SameTables system state) {authority : AuthAuthority}
    (hauthority : state.authorities[index]? = some authority) :
    ∃ domain, system.domains[index]? = some domain
      ∧ authority.bare = initializeAuthority system domain := by
  have hbare : (state.authorities.map AuthAuthority.bare)[index]? = some authority.bare := by
    rw [List.getElem?_map, hauthority, Option.map_some]
  rw [htables, List.getElem?_map] at hbare
  obtain ⟨domain, hdomain, hsame⟩ := Option.map_eq_some_iff.mp hbare
  exact ⟨domain, hdomain, hsame.symm⟩

omit crypt in
theorem sameTables_createSessionForUser (htables : SameTables system state) (index : ℕ)
    (user : FacetConfigUser) : SameTables system (createSessionForUser state index user) := by
  unfold SameTables createSessionForUser
  rw [← htables]
  apply List.ext_getElem?
  intro position
  simp only [List.getElem?_map, List.getElem?_modify]
  cases state.authorities[position]? <;> split_ifs <;> rfl

/-! ## Tracing sessions back -/

/-- A user that a proof of identity stands for has authenticated. -/
def Proven (system : FacetSystemConfig) (events : List AuthEvent) (index position : ℕ) : Prop :=
  ∃ domain user, system.domains[index]? = some domain
    ∧ (initializeAuthority system domain).users[position]? = some user
    ∧ (∃ name, user.name = some name ∧ (initializeAuthority system domain).users.find?
        (fun other => other.name = some name) = some user)
    ∧ ∃ event ∈ events, event.Entitles crypt system ⟨domain.id.getD 0, user⟩

/-- Every session and every proof can be traced back to an event. -/
structure Traced (system : FacetSystemConfig) (events : List AuthEvent) (state : AuthState) :
    Prop where
  tables : SameTables system state
  sessions : ∀ authority ∈ state.authorities, ∀ session ∈ authority.sessions,
    ∃ event ∈ events, event.Entitles crypt system session
  issued : ∀ index position, (index, position) ∈ state.issued →
    Proven crypt system events index position

theorem authenticate_eq_ok {authority : AuthAuthority}
    (hauthenticate : Auth.authenticate crypt authority name password = .ok position) :
    ∃ user, authority.users[position]? = some user ∧ user.name = some name
      ∧ authority.users.find? (fun other => other.name = some name) = some user := by
  unfold Auth.authenticate at hauthenticate
  split at hauthenticate
  · cases hauthenticate
  split at hauthenticate
  · cases hauthenticate
  rename_i index hindex
  split at hauthenticate
  · obtain rfl := Except.ok.inj hauthenticate
    obtain ⟨hbound, hname, hfirst⟩ := List.findIdx?_eq_some_iff_getElem.mp hindex
    refine ⟨_, List.getElem?_eq_getElem hbound, by simpa using hname, ?_⟩
    exact List.find?_eq_some_iff_getElem.mpr
      ⟨hname, index, hbound, rfl, fun earlier hearlier => by simpa using hfirst earlier hearlier⟩
  · cases hauthenticate

omit crypt in
/-- A handle of an authenticated user is accepted by an authority of the same domain. -/
theorem findAuthenticatedUser_authenticated {authority : AuthAuthority}
    (hfind : findAuthenticatedUser authority (claimsOf state (.authenticated index position))
      = some user) :
    (index, position) ∈ state.issued ∧ ∃ owner, state.authorities[index]? = some owner
      ∧ owner.domainId = authority.domainId
      ∧ authority.users.find? (fun other =>
        other.name = some ((owner.users.getD position default).name.getD [])) = some user := by
  cases howner : state.authorities[index]? <;> rw [claimsOf, howner] at hfind
  case none => cases hfind
  case some owner =>
    by_cases hissued : (index, position) ∈ state.issued
    · simp only [if_pos hissued, findAuthenticatedUser, Option.ite_none_right_eq_some] at hfind
      exact ⟨hissued, owner, rfl, hfind⟩
    · simp only [if_neg hissued] at hfind
      cases hfind

/-- Accepted configurations tell their domains apart by id. -/
def UniqueIds (system : FacetSystemConfig) : Prop :=
  ∀ (left right : ℕ) (first second : FacetConfigDomain), system.domains[left]? = some first →
    system.domains[right]? = some second → first.id.getD 0 = second.id.getD 0 → left = right

/-- A proof that was handed out names its own user and no one else. -/
theorem entitled_of_proven (hunique : UniqueIds system)
    (htraced : Traced crypt system events state) {target : ℕ} {authority : AuthAuthority}
    (hauthority : state.authorities[target]? = some authority)
    (hfind : findAuthenticatedUser authority (claimsOf state (.authenticated index position))
      = some user) :
    ∃ domain, system.domains[target]? = some domain
      ∧ ∃ event ∈ events, event.Entitles crypt system ⟨domain.id.getD 0, user⟩ := by
  obtain ⟨hissued, owner, howner, hsame, hfound⟩ := findAuthenticatedUser_authenticated hfind
  obtain ⟨domain, proven, hdomain, hproven, ⟨name, hname, hfirst⟩, hentitled⟩ :=
    htraced.issued index position hissued
  obtain ⟨own, hown, hownBare⟩ := htraced.tables.authority howner
  obtain rfl : own = domain := Option.some.inj (hown.symm.trans hdomain)
  obtain ⟨there, hthere, hthereBare⟩ := htraced.tables.authority hauthority
  have hownId : owner.domainId = own.id.getD 0 := congrArg AuthAuthority.domainId hownBare
  have hthereId : authority.domainId = there.id.getD 0 := congrArg AuthAuthority.domainId hthereBare
  obtain rfl : index = target :=
    hunique index target own there hown hthere (by rw [← hownId, hsame, hthereId])
  obtain rfl : owner = authority := Option.some.inj (howner.symm.trans hauthority)
  have husers : owner.bare.users = (initializeAuthority system own).users :=
    congrArg AuthAuthority.users hownBare
  change owner.users = _ at husers
  have hposition : owner.users.getD position default = proven := by
    rw [List.getD_eq_getElem?_getD, husers, hproven, Option.getD_some]
  rw [hposition, hname, Option.getD_some, husers, hfirst] at hfound
  obtain rfl := Option.some.inj hfound
  exact ⟨own, hown, hentitled⟩

omit crypt in
theorem authority_of_authorityOf {domainId : ℕ} (hindex : authorityOf state domainId = some index) :
    ∃ authority, state.authorities[index]? = some authority ∧ authority.domainId = domainId := by
  obtain ⟨hbound, hid, -⟩ := List.findIdx?_eq_some_iff_getElem.mp hindex
  exact ⟨_, List.getElem?_eq_getElem hbound, by simpa using hid⟩

/-! ## One event -/

section Traces

variable (htraced : Traced crypt system events state)
include htraced

theorem Traced.mono {more : List AuthEvent}
    (hmore : ∀ event ∈ events, event ∈ more) : Traced crypt system more state where
  tables := htraced.tables
  sessions authority hauthority session hsession := by
    obtain ⟨event, hevent, hentitles⟩ := htraced.sessions authority hauthority session hsession
    exact ⟨event, hmore event hevent, hentitles⟩
  issued index position hissued := by
    obtain ⟨domain, user, hdomain, huser, hname, event, hevent, hentitles⟩ :=
      htraced.issued index position hissued
    exact ⟨domain, user, hdomain, huser, hname, event, hmore event hevent, hentitles⟩

/-- A session may be added for a user that some event entitles to it. -/
theorem Traced.createSession
    {domain : FacetConfigDomain} (hdomain : system.domains[index]? = some domain)
    (hentitled : ∃ event ∈ events, event.Entitles crypt system ⟨domain.id.getD 0, user⟩) :
    Traced crypt system events (createSessionForUser state index user) where
  tables := sameTables_createSessionForUser htraced.tables index user
  issued := htraced.issued
  sessions authority hauthority session hsession := by
    obtain ⟨position, hposition⟩ := List.mem_iff_getElem?.mp hauthority
    rw [createSessionForUser, List.getElem?_modify] at hposition
    obtain ⟨old, hold, hupdated⟩ := Option.map_eq_some_iff.mp hposition
    have hkept := htraced.sessions old (List.mem_of_getElem? hold)
    by_cases hhere : index = position
    · subst hhere
      rw [if_pos rfl] at hupdated
      subst hupdated
      cases hsession with
      | head =>
        obtain ⟨own, hown, hbare⟩ := htraced.tables.authority hold
        obtain rfl : own = domain := Option.some.inj (hown.symm.trans hdomain)
        have hid : old.domainId = own.id.getD 0 := congrArg AuthAuthority.domainId hbare
        rwa [hid]
      | tail _ hsession => exact hkept session hsession
    · rw [if_neg hhere] at hupdated
      exact hkept session (hupdated ▸ hsession)

theorem Traced.issue (hproven : Proven crypt system events index position) :
    Traced crypt system events { state with issued := (index, position) :: state.issued } := by
  refine ⟨htraced.tables, htraced.sessions, ?_⟩
  intro other place hmem
  cases hmem with
  | head => exact hproven
  | tail _ hold => exact htraced.issued other place hold

theorem Traced.issueProof (hevent : .authenticate index name password ∈ events) :
    Traced crypt system events (Auth.issueProof crypt state index name password) := by
  unfold Auth.issueProof
  split
  · exact htraced
  rename_i authority hauthority
  split
  · exact htraced
  rename_i position hauthenticate
  obtain ⟨domain, hdomain, hbare⟩ := htraced.tables.authority hauthority
  have hmade : Auth.authenticate crypt (initializeAuthority system domain) name password
      = .ok position := hbare ▸ hauthenticate
  obtain ⟨user, huser, hname, hfirst⟩ := authenticate_eq_ok crypt hmade
  refine htraced.issue crypt ⟨domain, user, hdomain, huser, ⟨name, hname, hfirst⟩, _, hevent, ?_⟩
  rw [users_initializeAuthority] at huser
  exact ⟨domain, position, hdomain, rfl, hmade, huser⟩

theorem Traced.sessionForUser {launched : ℕ}
    {terminal : ℕ} {domain : FacetConfigDomain} (hdomain : system.domains[launched]? = some domain)
    (hname : initialUser domain terminal = some name)
    (hevent : .launchInitial launched terminal ∈ events) :
    Traced crypt system events (dominit0AuthSessionForUser state (domain.id.getD 0) name) := by
  unfold dominit0AuthSessionForUser
  split
  · exact htraced
  rename_i index hindex
  obtain ⟨authority, hauthority, hid⟩ := authority_of_authorityOf hindex
  rw [hauthority, Option.bind_some]
  split
  · exact htraced
  · rename_i user hfound
    obtain ⟨own, hown, hbare⟩ := htraced.tables.authority hauthority
    have hownId : authority.domainId = own.id.getD 0 := congrArg AuthAuthority.domainId hbare
    refine htraced.createSession crypt hown ⟨_, hevent, domain, hdomain, ?_, name, hname, ?_⟩
    · exact hid.symm.trans hownId
    · simpa using List.find?_some hfound

variable (hunique : UniqueIds system)
include hunique

theorem Traced.securityCreate {handle : ProofHandle}
    (hhonest : (AuthEvent.createSession index handle).Honest system) :
    Traced crypt system events (Auth.securityCreate state index handle) := by
  unfold Auth.securityCreate
  split
  · exact htraced
  rename_i authority hauthority
  split
  · exact htraced
  rename_i user hfind
  cases handle with
  | authenticated owner position =>
    obtain ⟨domain, hdomain, hentitled⟩ :=
      entitled_of_proven crypt hunique htraced hauthority hfind
    exact htraced.createSession crypt hdomain hentitled
  | client claims =>
    obtain ⟨domain, hdomain, hbare⟩ := htraced.tables.authority hauthority
    have hnone := hhonest domain hdomain
    rw [← hbare] at hnone
    cases hnone.symm.trans hfind

theorem Traced.authenticateUser {domainId : ℕ}
    (hevent : .authenticateUser domainId name password ∈ events) :
    Traced crypt system events (dominit0AuthenticateUser crypt state domainId name password) := by
  unfold dominit0AuthenticateUser
  split
  · exact htraced
  rename_i index hindex
  obtain ⟨authority, hauthority, hid⟩ := authority_of_authorityOf hindex
  rw [hauthority, Option.map_some]
  split
  · rename_i position hauthenticate
    obtain ⟨domain, hdomain, hbare⟩ := htraced.tables.authority hauthority
    have hmade : Auth.authenticate crypt (initializeAuthority system domain) name password
        = .ok position := hbare ▸ Option.some.inj hauthenticate
    obtain ⟨user, huser, hname, hfirst⟩ := authenticate_eq_ok crypt hmade
    have hownId : authority.domainId = domain.id.getD 0 := congrArg AuthAuthority.domainId hbare
    have hproven : Proven crypt system events index position := by
      refine ⟨domain, user, hdomain, huser, ⟨name, hname, hfirst⟩, _, hevent, ?_⟩
      rw [users_initializeAuthority] at huser
      exact ⟨domain, position, List.mem_of_getElem? hdomain, rfl, hid.symm.trans hownId, hmade,
        huser⟩
    have hhonest : (AuthEvent.createSession index (.authenticated index position)).Honest system :=
      trivial
    have hcreated := (htraced.issue crypt hproven).securityCreate crypt hunique hhonest
    exact ⟨hcreated.tables, hcreated.sessions, htraced.issued⟩
  · exact htraced

theorem Traced.step {event : AuthEvent} (hevent : event ∈ events) (hhonest : event.Honest system) :
    Traced crypt system events (event.step crypt system state) := by
  cases event with
  | authenticate index name password => exact htraced.issueProof crypt hevent
  | createSession index handle => exact htraced.securityCreate crypt hunique hhonest
  | authenticateUser domainId name password => exact htraced.authenticateUser crypt hunique hevent
  | launchInitial index terminal =>
    unfold AuthEvent.step
    dsimp only
    split
    · exact htraced
    · rename_i domain hdomain
      split
      · exact htraced
      · rename_i name hname
        exact htraced.sessionForUser crypt hdomain hname hevent

end Traces

/-! ## All events -/

omit crypt in
theorem sameTables_startState (system : FacetSystemConfig) :
    SameTables system (startState system) := by
  unfold SameTables startState
  rw [List.map_map]
  rfl

theorem traced_stateAfter (hunique : UniqueIds system)
    (hhonest : ∀ event ∈ events, event.Honest system) :
    Traced crypt system events (stateAfter crypt system events) := by
  induction events using List.reverseRecOn with
  | nil =>
    refine ⟨sameTables_startState system, ?_, by simp [stateAfter, startState]⟩
    intro authority hauthority session hsession
    obtain ⟨domain, -, rfl⟩ := List.mem_map.mp hauthority
    cases hsession
  | append_singleton events event ih =>
    have hearlier := ih fun other hother => hhonest other (List.mem_append_left _ hother)
    have hmore : Traced crypt system (events ++ [event]) (stateAfter crypt system events) :=
      hearlier.mono crypt fun other hother => List.mem_append_left _ hother
    have hstep := hmore.step crypt hunique (List.mem_append_right _ List.mem_cons_self)
      (hhonest event (List.mem_append_right _ List.mem_cons_self))
    rw [stateAfter, List.foldl_append]
    exact hstep

/-- In every run from an accepted configuration in which no client makes up a proof that
names a user, every session belongs to a user who authenticated in its domain or
for whom the launcher started a terminal. -/
theorem sessions_only_for_authenticated (data : List UInt8) (system : FacetSystemConfig)
    (hparse : facetConfigParse data = .ok system) (events : List AuthEvent)
    (hhonest : ∀ event ∈ events, event.Honest system) : SessionsEntitled crypt system events :=
  (traced_stateAfter crypt (fun _ _ _ _ hfirst hsecond hid =>
    accepted_domain_ids hparse hfirst hsecond hid) hhonest).sessions

/-- A client that answers as root of the system domain is given root's session. -/
theorem session_for_forged_proof :
    facetConfigParse twoDomains = .ok twoDomainsConfig
      ∧ ∀ crypt : List UInt8 → List UInt8 → Option (List UInt8),
        ¬SessionsEntitled crypt twoDomainsConfig
          [.createSession 0 (.client ⟨.ok true, .ok 0, .ok (utf8Text "root")⟩)] := by
  refine ⟨twoDomains_accepted, fun crypt hentitled => ?_⟩
  obtain ⟨authority, hauthority, session, hsession, -⟩ :
      ∃ authority ∈ (securityCreate (startState twoDomainsConfig) 0
        (.client ⟨.ok true, .ok 0, .ok (utf8Text "root")⟩)).authorities,
        ∃ session ∈ authority.sessions, session.user.uid = some 0 := by
    decide +kernel
  obtain ⟨event, hevent, hentitles⟩ := hentitled authority hauthority session hsession
  rw [List.mem_singleton.mp hevent] at hentitles
  exact hentitles

/-- A session that a client obtains with its password. -/
theorem sessions_only_for_authenticated_login :
    SessionsEntitled (fun _ hash => some hash) twoDomainsConfig
      [.authenticate 0 (utf8Text "user") [], .createSession 0 (.authenticated 0 1)] :=
  sessions_only_for_authenticated (fun _ hash => some hash) twoDomains twoDomainsConfig
    twoDomains_accepted _ (by simp [AuthEvent.Honest])

end Authentication

end FacetOS.Auth
