import FacetOS.Config.Sources
import FacetOS.Environment.Services

/-!
# Authentication authorities

At start-up every domain is given an authority over its users, and the
authority's two services are bound in the domain's environment, unless the
domain's source index says that the domain has no source.
-/

namespace FacetOS.Auth

open Config Environment

/-! ## Initialisation -/

/-- `(size_t)-1`, the index of a domain without a source. -/
def noSource : ℕ := 2 ^ 64 - 1

structure Session where
  domainId : ℕ
  user : FacetConfigUser
  deriving DecidableEq

/-- An authority; the sessions it made come newest first. -/
structure AuthAuthority where
  domainId : ℕ
  users : List FacetConfigUser
  sessions : List Session
  deriving DecidableEq

/-- Entry `index` of the user table. -/
def tableUser (system : FacetSystemConfig) (domain : FacetConfigDomain) (index : ℕ) :
    FacetConfigUser :=
  if index < system.users.length then system.users.getD index default
  else (domainUsers domain).getD (index - system.users.length) default

def initializeAuthority (system : FacetSystemConfig) (domain : FacetConfigDomain) :
    AuthAuthority where
  domainId := domain.id.getD 0
  users := (List.range (system.users.length + (domainUsers domain).length)).map
    (tableUser system domain)
  sessions := []

section Initialize

variable {Iid Handle : Type} (iidOf : BuiltIn → Iid) (iidAuth iidSecurity : Iid)
  (service security : ℕ → Handle)
variable {environments : List (DomainEnvironment Iid Handle)} (system : FacetSystemConfig)

/-- Create the authority of domain `index` and bind its two services. -/
def startAuthority (index : ℕ) (domain : FacetConfigDomain)
    (environment : DomainEnvironment Iid Handle) :
    Option (Option AuthAuthority × DomainEnvironment Iid Handle) :=
  if domain.authenticationSourceIndex = noSource then some (none, environment)
  else do
    let withAuth ← dominit0EnvironmentBindNamed iidOf environment (ascii "auth") iidAuth
      (some (service index))
    let withSecurity ← dominit0EnvironmentBindNamed iidOf withAuth (ascii "security") iidSecurity
      (some (security index))
    return (some (initializeAuthority system domain), withSecurity)

/-- The loop over the domains and their environments, from domain `index` on. -/
def startAuthorities : ℕ → List FacetConfigDomain → List (DomainEnvironment Iid Handle) →
    Option (List (Option AuthAuthority × DomainEnvironment Iid Handle))
  | index, domain :: domains, environment :: environments => do
      let started ← startAuthority iidOf iidAuth iidSecurity service security system index domain
        environment
      let rest ← startAuthorities (index + 1) domains environments
      return started :: rest
  | _, _, _ => some []

def dominit0AuthInitialize (environments : List (DomainEnvironment Iid Handle)) :
    Option (List (Option AuthAuthority × DomainEnvironment Iid Handle)) :=
  startAuthorities iidOf iidAuth iidSecurity service security system 0 system.domains environments

/-! ## Where authorities are created -/

/-- The environment answers the two names with the authority's services. -/
def ServicesBound (index : ℕ) (environment : DomainEnvironment Iid Handle) : Prop :=
  processBinding iidOf environment (ascii "auth") = .ok (iidAuth, service index)
    ∧ processBinding iidOf environment (ascii "security") = .ok (iidSecurity, security index)

/-- What a domain without a source should have. -/
def NoServices (environment : DomainEnvironment Iid Handle) : Prop :=
  (∀ binding, processBinding iidOf environment (ascii "auth") ≠ .ok binding)
    ∧ ∀ binding, processBinding iidOf environment (ascii "security") ≠ .ok binding

/-- The row of a domain is right: an authority over the global users followed by the
domain's, with its services bound, if the domain declares a source, and neither
an authority nor services if it does not. -/
def RightRow (index : ℕ) (domain : FacetConfigDomain)
    (row : Option AuthAuthority × DomainEnvironment Iid Handle) : Prop :=
  match domain.authenticationSource with
  | some _ => ∃ authority, row.1 = some authority
      ∧ authority.users = system.users ++ domainUsers domain
      ∧ ServicesBound iidOf iidAuth iidSecurity service security index row.2
  | none => row.1 = none ∧ NoServices iidOf row.2

/-- Initialisation succeeds and every domain's row is right. -/
def AuthoritiesWhereDeclared
    (result : Option (List (Option AuthAuthority × DomainEnvironment Iid Handle))) : Prop :=
  ∃ rows, result = some rows ∧ rows.length = system.domains.length
    ∧ ∀ index domain row, system.domains[index]? = some domain → rows[index]? = some row →
      RightRow iidOf iidAuth iidSecurity service security system index domain row

theorem users_initializeAuthority (domain : FacetConfigDomain) :
    (initializeAuthority system domain).users = system.users ++ domainUsers domain := by
  apply List.ext_getElem?
  intro index
  simp only [initializeAuthority, List.getElem?_map]
  by_cases hglobal : index < system.users.length
  · rw [List.getElem?_append_left hglobal, List.getElem?_range (by omega), Option.map_some,
      tableUser, if_pos hglobal, List.getD_eq_getElem?_getD, List.getElem?_eq_getElem hglobal,
      Option.getD_some]
  · rw [List.getElem?_append_right (not_lt.mp hglobal)]
    by_cases hdomain : index - system.users.length < (domainUsers domain).length
    · rw [List.getElem?_range (by omega), Option.map_some, tableUser, if_neg hglobal,
        List.getD_eq_getElem?_getD, List.getElem?_eq_getElem hdomain, Option.getD_some]
    · rw [List.getElem?_eq_none (by simpa using by omega), Option.map_none,
        List.getElem?_eq_none (not_lt.mp hdomain)]

/-- In a fresh environment both services of a new authority are bound. -/
theorem startAuthority_fresh {domain : FacetConfigDomain}
    {environment : DomainEnvironment Iid Handle} (index : ℕ)
    (hsource : domain.authenticationSourceIndex ≠ noSource)
    (hfresh : environment.extraBindings = []) :
    ∃ bound, startAuthority iidOf iidAuth iidSecurity service security system index domain
        environment = some (some (initializeAuthority system domain), bound)
      ∧ ServicesBound iidOf iidAuth iidSecurity service security index bound := by
  obtain ⟨withAuth, entry, hauth, hentry, htable, hbound⟩ := exists_bindNamed iidOf
    environment (ascii "auth") (by decide) (by decide)
    (by intro service; cases service <;> decide) (by simp [hfresh])
    (by simp [hfresh, extraBindingsMax]) iidAuth (service index)
  rw [hfresh, List.nil_append] at htable
  obtain ⟨withSecurity, other, hsecurity, -, -, hsecurityBound⟩ := exists_bindNamed iidOf
    withAuth (ascii "security") (by decide) (by decide)
    (by intro service; cases service <;> decide)
    (by rw [htable]; intro other hother; rw [List.mem_singleton.mp hother, hentry]; decide)
    (by simp [htable, extraBindingsMax]) iidSecurity (security index)
  refine ⟨withSecurity, ?_, ?_, hsecurityBound⟩
  · simp only [startAuthority, if_neg hsource, hauth, hsecurity, Option.bind_eq_bind,
      Option.bind_some, Option.pure_def]
  · exact processBinding_of_extends iidOf (extends_of_bindNamed iidOf hsecurity) hbound

/-- With fresh environments and no index that says otherwise, every domain gets an
authority. -/
theorem startAuthorities_fresh {domains : List FacetConfigDomain}
    (first : ℕ) (hlength : environments.length = domains.length)
    (hsource : ∀ domain ∈ domains, domain.authenticationSourceIndex ≠ noSource)
    (hfresh : ∀ environment ∈ environments, environment.extraBindings = []) :
    ∃ rows, startAuthorities iidOf iidAuth iidSecurity service security system first domains
        environments = some rows ∧ rows.length = domains.length
      ∧ ∀ index domain row, domains[index]? = some domain → rows[index]? = some row →
        row.1 = some (initializeAuthority system domain)
          ∧ ServicesBound iidOf iidAuth iidSecurity service security (first + index) row.2 := by
  induction domains generalizing first environments with
  | nil => exact ⟨[], rfl, rfl, by simp⟩
  | cons domain domains ih =>
    cases environments with
    | nil => cases hlength
    | cons environment environments =>
      obtain ⟨bound, hstarted, hservices⟩ := startAuthority_fresh iidOf iidAuth iidSecurity
        service security system first (hsource domain List.mem_cons_self)
        (hfresh environment List.mem_cons_self)
      obtain ⟨rows, hrows, hcount, hrest⟩ := ih (first + 1) (Nat.succ.inj hlength)
        (fun other hother => hsource other (List.mem_cons_of_mem _ hother))
        (fun other hother => hfresh other (List.mem_cons_of_mem _ hother))
      refine ⟨(some (initializeAuthority system domain), bound) :: rows, ?_, ?_, ?_⟩
      · simp only [startAuthorities, hstarted, hrows, Option.bind_eq_bind, Option.bind_some,
          Option.pure_def]
      · rw [List.length_cons, List.length_cons, hcount]
      intro index other row hother hrow
      cases index with
      | zero =>
        cases hother
        cases hrow
        exact ⟨rfl, hservices⟩
      | succ index =>
        have hnext := hrest index other row hother hrow
        rwa [Nat.add_assoc, Nat.add_comm 1 index] at hnext

/-- If no index says otherwise, authorities stand only where they should when every
domain declares a source. -/
theorem declared_of_authorities {system : FacetSystemConfig}
    (hlength : environments.length = system.domains.length)
    (hsource : ∀ domain ∈ system.domains, domain.authenticationSourceIndex ≠ noSource)
    (hfresh : ∀ environment ∈ environments, environment.extraBindings = [])
    (hright : AuthoritiesWhereDeclared iidOf iidAuth iidSecurity service security system
      (dominit0AuthInitialize iidOf iidAuth iidSecurity service security system environments)) :
    ∀ domain ∈ system.domains, domain.authenticationSource ≠ none := by
  obtain ⟨rows, hrows, hcount, hstarted⟩ := startAuthorities_fresh iidOf iidAuth iidSecurity service
    security system 0 hlength hsource hfresh
  obtain ⟨other, hother, -, hright⟩ := hright
  obtain rfl : other = rows := Option.some.inj (hother.symm.trans hrows)
  intro domain hdomain hnone
  obtain ⟨index, hindex, hget⟩ := List.mem_iff_getElem.mp hdomain
  have hdomainAt : system.domains[index]? = some domain :=
    List.getElem?_eq_some_iff.mpr ⟨hindex, hget⟩
  obtain ⟨row, hrowAt⟩ : ∃ row, other[index]? = some row :=
    ⟨_, List.getElem?_eq_getElem (hcount ▸ hindex)⟩
  have hrow := hright index domain row hdomainAt hrowAt
  rw [RightRow, hnone] at hrow
  rw [(hstarted index domain row hdomainAt hrowAt).1] at hrow
  cases hrow.1

theorem authorities_of_declared {system : FacetSystemConfig}
    (hlength : environments.length = system.domains.length)
    (hsource : ∀ domain ∈ system.domains, domain.authenticationSourceIndex ≠ noSource)
    (hfresh : ∀ environment ∈ environments, environment.extraBindings = [])
    (hdeclared : ∀ domain ∈ system.domains, domain.authenticationSource ≠ none) :
    AuthoritiesWhereDeclared iidOf iidAuth iidSecurity service security system
      (dominit0AuthInitialize iidOf iidAuth iidSecurity service security system environments) := by
  obtain ⟨rows, hrows, hcount, hstarted⟩ := startAuthorities_fresh iidOf iidAuth iidSecurity service
    security system 0 hlength hsource hfresh
  refine ⟨rows, hrows, hcount, ?_⟩
  intro index domain row hdomain hrow
  obtain ⟨hauthority, hservices⟩ := hstarted index domain row hdomain hrow
  rw [Nat.zero_add] at hservices
  obtain ⟨source, hname⟩ := Option.ne_none_iff_exists'.mp
    (hdeclared domain (List.mem_of_getElem? hdomain))
  rw [RightRow, hname]
  exact ⟨_, hauthority, users_initializeAuthority system domain, hservices⟩

/-- For an accepted configuration, authorities are created exactly where a source is
declared if and only if every domain declares one: no domain ever has the index
of a domain without a source. -/
theorem authorities_where_declared_iff (data : List UInt8) (system : FacetSystemConfig)
    (hparse : facetConfigParse data = .ok system)
    (environments : List (DomainEnvironment Iid Handle))
    (hlength : environments.length = system.domains.length)
    (hfresh : ∀ environment ∈ environments, environment.extraBindings = []) :
    AuthoritiesWhereDeclared iidOf iidAuth iidSecurity service security system
        (dominit0AuthInitialize iidOf iidAuth iidSecurity service security system environments)
      ↔ ∀ domain ∈ system.domains, domain.authenticationSource ≠ none := by
  have hsource : ∀ domain ∈ system.domains, domain.authenticationSourceIndex ≠ noSource := by
    intro domain hdomain hnone
    have hsmall := (accepted_domains hparse domain hdomain).2
    rw [hnone] at hsmall
    exact absurd hsmall (by decide)
  constructor
  · exact declared_of_authorities iidOf iidAuth iidSecurity service security hlength hsource hfresh
  · exact authorities_of_declared iidOf iidAuth iidSecurity service security hlength hsource hfresh

end Initialize

/-! ## Declared and undeclared sources -/

/-- The environments of a configuration's domains as they are first made. -/
def freshEnvironments (system : FacetSystemConfig) : List (DomainEnvironment BuiltIn ℕ) :=
  system.domains.map fun _ => dominit0EnvironmentInitialize 0 1

theorem fresh_freshEnvironments (system : FacetSystemConfig) :
    ∀ environment ∈ freshEnvironments system, environment.extraBindings = [] := by
  intro environment henvironment
  obtain ⟨domain, -, rfl⟩ := List.mem_map.mp henvironment
  rfl

/-- The built-in configuration declares a source in every domain. -/
theorem authorities_where_declared_fallback :
    ∃ system, facetConfigParse fallback = .ok system
      ∧ AuthoritiesWhereDeclared id .logger .files id id system
        (dominit0AuthInitialize id .logger .files id id system (freshEnvironments system)) := by
  have hchecked : (facetConfigParse fallback).toOption.any
      (fun system => system.domains.all fun domain => domain.authenticationSource.isSome)
      = true := by
    decide +kernel
  cases hparse : facetConfigParse fallback with
  | error diagnostic =>
    rw [hparse] at hchecked
    cases hchecked
  | ok system =>
    rw [hparse] at hchecked
    refine ⟨system, rfl, (authorities_where_declared_iff id .logger .files id id fallback system
      hparse (freshEnvironments system) (List.length_map _)
      (fresh_freshEnvironments system)).mpr ?_⟩
    intro domain hdomain hnone
    have hsome := List.all_eq_true.mp hchecked domain hdomain
    rw [hnone] at hsome
    cases hsome

/-- Domains that declare no source are given authorities all the same. -/
theorem authorities_not_where_declared :
    facetConfigParse twoDomains = .ok twoDomainsConfig
      ∧ (∀ domain ∈ twoDomainsConfig.domains, domain.authenticationSource = none)
      ∧ ¬AuthoritiesWhereDeclared id .logger .files id id twoDomainsConfig
        (dominit0AuthInitialize id .logger .files id id twoDomainsConfig
          (freshEnvironments twoDomainsConfig)) := by
  refine ⟨twoDomains_accepted, by decide, ?_⟩
  intro hright
  have hdeclared := declared_of_authorities id .logger .files id id (List.length_map _) (by decide)
    (fresh_freshEnvironments twoDomainsConfig) hright
  obtain ⟨domain, hdomain, hnone⟩ : ∃ domain ∈ twoDomainsConfig.domains,
      domain.authenticationSource = none := by decide
  exact hdeclared domain hdomain hnone

end FacetOS.Auth
