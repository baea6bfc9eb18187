import FacetOS.Config.Parser

/-!
# Referential integrity of an accepted configuration

Validation rejects a name that is used twice and stores a position for each
reference it resolves.  What it returns is therefore a configuration in which
names are distinct and every stored position leads to the item that the text
named, and apart from those positions it is the configuration that was read.
-/

namespace FacetOS.Config

open Passes

/-! ## Positions -/

def FacetConfigDomainSink.unresolved (use : FacetConfigDomainSink) : FacetConfigDomainSink :=
  { use with sinkDefinitionIndex := 0 }

def FacetConfigTerminalAssignment.unresolved (assignment : FacetConfigTerminalAssignment) :
    FacetConfigTerminalAssignment :=
  { assignment with seatIndex := 0, terminalIndex := 0 }

def FacetConfigAuthenticationSource.unresolved (source : FacetConfigAuthenticationSource) :
    FacetConfigAuthenticationSource :=
  { source with providerDomainIndex := 0 }

def FacetConfigDomain.unresolved (domain : FacetConfigDomain) : FacetConfigDomain :=
  { domain with
    loggingSinks := domain.loggingSinks.map (List.map FacetConfigDomainSink.unresolved)
    terminals := domain.terminals.map (List.map FacetConfigTerminalAssignment.unresolved)
    authenticationSourceIndex :=
      if domain.authenticationSource = none then domain.authenticationSourceIndex else 0 }

/-- The configuration without the positions that validation stores. -/
def FacetSystemConfig.unresolved (config : FacetSystemConfig) : FacetSystemConfig :=
  { config with
    authenticationSources :=
      config.authenticationSources.map FacetConfigAuthenticationSource.unresolved
    domains := config.domains.map FacetConfigDomain.unresolved
    rootIndex := 0 }

def domainSinks (domain : FacetConfigDomain) : List FacetConfigDomainSink :=
  domain.loggingSinks.getD []

def SinkResolves (sinks : List FacetConfigLoggingSinkDefinition) (use : FacetConfigDomainSink) :
    Prop :=
  ∃ sink, sinks[use.sinkDefinitionIndex]? = some sink ∧ sink.name = some use.name

def TerminalResolves (seats : List FacetConfigSeatDefinition)
    (assignment : FacetConfigTerminalAssignment) : Prop :=
  ∃ definition seat terminal, seats[assignment.seatIndex]? = some definition
    ∧ definition.name = some seat
    ∧ (definition.terminals.getD [])[assignment.terminalIndex]? = some terminal
    ∧ assignment.reference = some (seat ++ byte '.' :: terminal)

/-- A domain that names no source keeps the index that was read, which is unset. -/
def SourceResolves (sources : List FacetConfigAuthenticationSource) (domain : FacetConfigDomain) :
    Prop :=
  ∀ name, domain.authenticationSource = some name →
    ∃ source, sources[domain.authenticationSourceIndex]? = some source ∧ source.name = some name

def ProviderResolves (domains : List FacetConfigDomain)
    (source : FacetConfigAuthenticationSource) : Prop :=
  ∃ domain id, domains[source.providerDomainIndex]? = some domain ∧ domain.id = some id
    ∧ source.providerDomainId = some id

/-- A native domain has no `pid1` and its terminals name a view and a process; a
POSIX domain has one and its terminals name a device. -/
def PersonalityKeys (domain : FacetConfigDomain) : Prop :=
  match domain.personality with
  | some .native =>
    domain.pid1 = none ∧ ∀ assignment ∈ domainTerminals domain, TerminalKeys .native assignment
  | some .posix =>
    (∃ path, domain.pid1 = some path ∧ path ≠ [])
      ∧ ∀ assignment ∈ domainTerminals domain, TerminalKeys .posix assignment
  | _ => False

/-- What holds of one domain beside the tables it refers to. -/
structure SoundDomain (config : FacetSystemConfig) (domain : FacetConfigDomain) : Prop where
  users : ((config.users ++ domainUsers domain).map FacetConfigUser.name).Nodup
  sinks : ∀ use ∈ domainSinks domain, SinkResolves config.loggingSinks use
  terminals : ∀ assignment ∈ domainTerminals domain, TerminalResolves config.seats assignment
  source : SourceResolves config.authenticationSources domain
  runAs : ∀ assignment ∈ domainTerminals domain, ∀ name, assignment.runAs = some name →
    ∃ user ∈ config.users ++ domainUsers domain, user.name = some name
  personality : PersonalityKeys domain

/-- Names are distinct and references lead where they say. -/
structure ReferentialIntegrity (config : FacetSystemConfig) : Prop where
  sinkNames : (config.loggingSinks.map FacetConfigLoggingSinkDefinition.name).Nodup
  seatNames : (config.seats.map FacetConfigSeatDefinition.name).Nodup
  sourceNames : (config.authenticationSources.map FacetConfigAuthenticationSource.name).Nodup
  userNames : (config.users.map FacetConfigUser.name).Nodup
  domainNames : (config.domains.map FacetConfigDomain.name).Nodup
  domainIds : (config.domains.map FacetConfigDomain.id).Nodup
  domainInitrds : (config.domains.map FacetConfigDomain.initrd).Nodup
  root : ∀ index domain, config.domains[index]? = some domain →
    (domain.id = some 0 ↔ index = config.rootIndex)
  rootBound : config.rootIndex < config.domains.length
  domains : ∀ domain ∈ config.domains, SoundDomain config domain
  providers : ∀ source ∈ config.authenticationSources, ProviderResolves config.domains source
  assignedOnce : ((config.domains.flatMap domainTerminals).map (fun assignment =>
    (assignment.seatIndex, assignment.terminalIndex))).Nodup

/-! ## Sinks, seats, sources and users -/

theorem validateSink_ok {earlier : List FacetConfigLoggingSinkDefinition}
    {sink result : FacetConfigLoggingSinkDefinition}
    (hstep : validateSink earlier sink = .ok result) :
    result = sink ∧ ∀ other ∈ earlier, other.name ≠ result.name := by
  simp only [validateSink, bind_eq_ok, required_eq_ok, reject_eq_ok] at hstep
  obtain ⟨name, hname, type, -, required, -, -, -, -, hfresh, hresult⟩ := hstep
  obtain rfl := Except.ok.inj hresult
  refine ⟨rfl, ?_⟩
  intro other hother heq
  exact hfresh ⟨other, hother, heq.trans hname⟩

variable {config : FacetSystemConfig} {domains : List FacetConfigDomain}
  {seat terminal domain : List UInt8} {user : FacetConfigUser} {index : ℕ}

theorem validateSeatTerminal_ok {result : List UInt8} {earlier : List (List UInt8)}
    (hstep : validateSeatTerminal seat earlier terminal = .ok result) : result = terminal := by
  simp only [validateSeatTerminal, bind_eq_ok, reject_eq_ok] at hstep
  obtain ⟨-, -, -, -, hresult⟩ := hstep
  exact (Except.ok.inj hresult).symm

theorem validateSeat_ok {earlier : List FacetConfigSeatDefinition}
    {seat result : FacetConfigSeatDefinition} (hstep : validateSeat earlier seat = .ok result) :
    result = seat ∧ ∀ other ∈ earlier, other.name ≠ result.name := by
  simp only [validateSeat, bind_eq_ok, required_eq_ok, reject_eq_ok] at hstep
  obtain ⟨name, hname, type, -, server, -, terminals, hterminals, -, -, -, hfresh, checked,
    hchecked, hresult⟩ := hstep
  have hsame : checked = terminals :=
    mapEach_eq hchecked (fun done row updated hrow => validateSeatTerminal_ok hrow)
  have hseat : result = seat := by
    rw [← Except.ok.inj hresult, hsame, ← hterminals]
  refine ⟨hseat, ?_⟩
  intro other hother heq
  rw [hseat] at heq
  exact hfresh ⟨other, hother, heq.trans hname⟩

variable {earlier : List FacetConfigAuthenticationSource}

theorem validateSource_ok {source result : FacetConfigAuthenticationSource}
    (hstep : validateSource earlier source = .ok result) :
    result = source ∧ result.providerDomainId ≠ none
      ∧ ∀ other ∈ earlier, other.name ≠ result.name := by
  simp only [validateSource, bind_eq_ok, required_eq_ok, reject_eq_ok] at hstep
  obtain ⟨name, hname, provider, hprovider, type, -, required, -, -, -, -, hfresh, hresult⟩ :=
    hstep
  obtain rfl := Except.ok.inj hresult
  refine ⟨rfl, by simp [hprovider], ?_⟩
  intro other hother heq
  exact hfresh ⟨other, hother, heq.trans hname⟩

theorem validateUser_ok {context name : List UInt8} (hstep : validateUser context user = .ok name) :
    user.name = some name := by
  simp only [validateUser, bind_eq_ok, required_eq_ok, reject_eq_ok] at hstep
  obtain ⟨found, hname, hash, -, admin, -, uid, -, gid, -, home, -, -, -, -, -, -, -, hresult⟩ :=
    hstep
  rw [hname, Except.ok.inj hresult]

theorem validateGlobalUser_ok {earlier : List FacetConfigUser} {result : FacetConfigUser}
    (hstep : validateGlobalUser earlier user = .ok result) :
    result = user ∧ ∀ other ∈ earlier, other.name ≠ result.name := by
  simp only [validateGlobalUser, bind_eq_ok, reject_eq_ok] at hstep
  obtain ⟨name, hname, -, hfresh, -, -, hresult⟩ := hstep
  obtain rfl := Except.ok.inj hresult
  refine ⟨rfl, ?_⟩
  intro other hother heq
  exact hfresh ⟨other, hother, heq.trans (validateUser_ok hname)⟩

theorem validateDomainUser_ok {globalUsers earlier : List FacetConfigUser}
    {result : FacetConfigUser}
    (hstep : validateDomainUser globalUsers domain earlier user = .ok result) :
    result = user ∧ ∀ other ∈ globalUsers ++ earlier, other.name ≠ result.name := by
  simp only [validateDomainUser, bind_eq_ok, reject_eq_ok] at hstep
  obtain ⟨name, hname, -, hglobal, -, hlocal, hresult⟩ := hstep
  obtain rfl := Except.ok.inj hresult
  refine ⟨rfl, ?_⟩
  intro other hother heq
  have hsame := heq.trans (validateUser_ok hname)
  cases List.mem_append.mp hother with
  | inl hother => exact hglobal ⟨other, hother, hsame⟩
  | inr hother => exact hlocal ⟨other, hother, hsame⟩

/-! ## Domains -/

theorem findIdx?_designates {α : Type} {rows : List α} {wanted : α → Bool}
    (hfind : rows.findIdx? wanted = some index) :
    ∃ row, rows[index]? = some row ∧ wanted row = true := by
  obtain ⟨hlength, hwanted, -⟩ := List.findIdx?_eq_some_iff_getElem.mp hfind
  exact ⟨rows[index], List.getElem?_eq_getElem hlength, hwanted⟩

theorem validateDomainSink_ok {sinks : List FacetConfigLoggingSinkDefinition}
    {earlier : List FacetConfigDomainSink} {use result : FacetConfigDomainSink}
    (hstep : validateDomainSink sinks earlier use = .ok result) :
    result.unresolved = use.unresolved ∧ SinkResolves sinks result := by
  simp only [validateDomainSink, bind_eq_ok, required_eq_ok, reject_eq_ok] at hstep
  obtain ⟨index, hindex, -, -, hresult⟩ := hstep
  obtain rfl := Except.ok.inj hresult
  obtain ⟨sink, hsink, hname⟩ := findIdx?_designates hindex
  exact ⟨rfl, sink, hsink, by simpa using hname⟩

theorem splitReference_some {reference : List UInt8}
    (hsplit : splitReference reference = some (seat, terminal)) :
    reference = seat ++ byte '.' :: terminal := by
  unfold splitReference at hsplit
  cases hdrop : reference.dropWhile (fun c => c ≠ byte '.') with
  | nil => simp only [hdrop, reduceCtorEq] at hsplit
  | cons dot rest =>
    simp only [hdrop] at hsplit
    split at hsplit
    · contradiction
    obtain ⟨rfl, rfl⟩ := Prod.mk.inj (Option.some.inj hsplit)
    have hdot : dot = byte '.' := by
      have hhead := List.head?_dropWhile_not (fun c => decide (c ≠ byte '.')) reference
      rw [hdrop] at hhead
      simpa using hhead
    calc reference
        = reference.takeWhile (fun c => c ≠ byte '.')
          ++ reference.dropWhile (fun c => c ≠ byte '.') :=
          List.takeWhile_append_dropWhile.symm
      _ = reference.takeWhile (fun c => c ≠ byte '.') ++ byte '.' :: rest := by
          rw [hdrop, hdot]

theorem locateTerminal_some {seats : List FacetConfigSeatDefinition} {position : ℕ}
    (hlocate : locateTerminal seats seat terminal = some (index, position)) :
    ∃ definition, seats[index]? = some definition ∧ definition.name = some seat
      ∧ (definition.terminals.getD [])[position]? = some terminal := by
  have hmem := List.mem_of_getLast? hlocate
  simp only [List.mem_filterMap, Option.map_eq_some_iff, Prod.mk.injEq, Prod.exists] at hmem
  obtain ⟨definition, found, hdefinition, place, hplace, rfl, rfl⟩ := hmem
  have hentry : seats[found]? = some definition := by
    simpa using List.mem_zipIdx_iff_getElem?.mp hdefinition
  unfold terminalIndex at hplace
  split at hplace
  · rename_i hname
    refine ⟨definition, hentry, hname, ?_⟩
    obtain ⟨hlength, hequal, -⟩ := List.findIdx?_eq_some_iff_getElem.mp hplace
    rw [List.getElem?_eq_getElem hlength]
    simpa using hequal
  · contradiction

/-- What one step of the pass over a domain's terminals guarantees. -/
structure CheckedTerminal (config : FacetSystemConfig)
    (assigned : List FacetConfigTerminalAssignment) (personality : FacetConfigPersonality)
    (users : List FacetConfigUser) (result : FacetConfigTerminalAssignment) : Prop where
  keys : TerminalKeys personality result
  resolves : TerminalResolves config.seats result
  runAs : ∀ name, result.runAs = some name →
    ∃ user ∈ config.users ++ users, user.name = some name
  fresh : ∀ other ∈ assigned,
    (other.seatIndex, other.terminalIndex) ≠ (result.seatIndex, result.terminalIndex)

theorem validateTerminal_ok {assigned earlier : List FacetConfigTerminalAssignment}
    {personality : FacetConfigPersonality} {users : List FacetConfigUser}
    {assignment result : FacetConfigTerminalAssignment}
    (hstep : validateTerminal config assigned domain personality users earlier assignment
      = .ok result) :
    result.unresolved = assignment.unresolved
      ∧ CheckedTerminal config (assigned ++ earlier) personality users result := by
  simp only [validateTerminal, bind_eq_ok, required_eq_ok, reject_eq_ok, not_not] at hstep
  obtain ⟨-, hkeys, reference, hreference, -, -, -, hrunAs, -, -, ⟨seat, terminal⟩, hsplit,
    ⟨index, position⟩, hlocate, -, hfresh, hresult⟩ := hstep
  obtain rfl := Except.ok.inj hresult
  obtain ⟨definition, hdefinition, hname, hterminal⟩ := locateTerminal_some hlocate
  refine ⟨rfl, ?_, ?_, ?_, ?_⟩
  · cases personality <;> exact hkeys
  · exact ⟨definition, seat, terminal, hdefinition, hname, hterminal,
      hreference.trans (congrArg some (splitReference_some hsplit))⟩
  · intro name hname
    by_contra hnone
    simp only [not_exists, not_and] at hnone
    exact hrunAs ⟨name, hname, hnone⟩
  · intro other hother heq
    obtain ⟨hseat, hposition⟩ := Prod.mk.inj heq
    exact hfresh ⟨other, hother, hseat, hposition⟩

theorem validateDomainSource_ok {domain : FacetConfigDomain}
    (hstep : validateDomainSource config domain = .ok index) :
    (domain.authenticationSource = none → index = domain.authenticationSourceIndex)
      ∧ ∀ name, domain.authenticationSource = some name →
        ∃ source, config.authenticationSources[index]? = some source ∧ source.name = some name := by
  refine ⟨fun hnone => ?_, fun name hname => ?_⟩
  · rw [validateDomainSource, hnone] at hstep
    exact (Except.ok.inj hstep).symm
  rw [validateDomainSource, hname] at hstep
  obtain ⟨source, hsource, hequal⟩ := findIdx?_designates (required_eq_ok.mp hstep)
  exact ⟨source, hsource, by simpa using hequal⟩

theorem rejectSameDomain_ok {id : ℕ} {name : List UInt8} {other : FacetConfigDomain}
    (hstep : rejectSameDomain id name other = .ok ()) :
    other.id ≠ some id ∧ other.name ≠ some name := by
  simp only [rejectSameDomain, bind_eq_ok, reject_eq_ok] at hstep
  obtain ⟨-, hid, hname⟩ := hstep
  exact ⟨hid, hname⟩

/-- What one step of the pass over the domains guarantees. -/
structure CheckedDomain (config : FacetSystemConfig) (earlier : List FacetConfigDomain)
    (result : FacetConfigDomain) : Prop where
  sound : SoundDomain config result
  freshName : ∀ other ∈ earlier, other.name ≠ result.name
  freshId : ∀ other ∈ earlier, other.id ≠ result.id
  freshInitrd : ∀ other ∈ earlier, other.initrd ≠ result.initrd
  assignedOnce : ((domainTerminals result).map (fun assignment =>
    (assignment.seatIndex, assignment.terminalIndex))).Nodup
  freshTerminals : ∀ other ∈ earlier.flatMap domainTerminals,
    ∀ assignment ∈ domainTerminals result,
      (other.seatIndex, other.terminalIndex) ≠ (assignment.seatIndex, assignment.terminalIndex)

theorem checkedUsers_nodup {globalUsers users checked : List FacetConfigUser}
    (hglobal : (globalUsers.map FacetConfigUser.name).Nodup)
    (hpass : mapEach (validateDomainUser globalUsers domain) [] users = .ok checked) :
    checked = users ∧ ((globalUsers ++ checked).map FacetConfigUser.name).Nodup := by
  constructor
  · exact mapEach_eq hpass (fun done row updated hstep => (validateDomainUser_ok hstep).1)
  rw [List.map_append, List.nodup_append]
  refine ⟨hglobal, ?_, ?_⟩
  · exact mapEach_nodup hpass (fun _ _ _ hstep other hother =>
      (validateDomainUser_ok hstep).2 other (List.mem_append_right _ hother))
  · intro left hleft right hright
    obtain ⟨other, hother, rfl⟩ := List.mem_map.mp hleft
    obtain ⟨row, hmem, rfl⟩ := List.mem_map.mp hright
    obtain ⟨before, original, -, hstep⟩ := mapEach_mem hpass hmem
    exact (validateDomainUser_ok hstep).2 other (List.mem_append_left _ hother)

theorem validateDomain_ok {earlier : List FacetConfigDomain} {domain result : FacetConfigDomain}
    (hglobal : (config.users.map FacetConfigUser.name).Nodup)
    (hstep : validateDomain config earlier domain = .ok result) :
    result.unresolved = domain.unresolved ∧ CheckedDomain config earlier result := by
  simp only [validateDomain, bind_eq_ok, required_eq_ok, reject_eq_ok] at hstep
  obtain ⟨id, hid, name, hname, personality, hpersonality, manager, -, sinks, hsinks, terminals,
    hterminals, initrd, hinitrd, -, -, -, -, -, hfreshInitrd, users, husers, -, hvm, checkedPairs,
    hsame, checkedSinks, hcheckedSinks, -, -, -, hnative, -, hposix, checkedTerminals,
    hcheckedTerminals, index, hindex, hresult⟩ := hstep
  obtain ⟨hsameUsers, hnodup⟩ := checkedUsers_nodup hglobal husers
  have hdomainUsers : domain.users.map (fun _ => users) = domain.users := by
    cases hcase : domain.users with
    | none => rfl
    | some given => simp [hsameUsers, domainUsers, hcase]
  rw [hdomainUsers] at hresult
  obtain rfl := Except.ok.inj hresult
  have hstepTerminal : ∀ before row after, checkedTerminals = before ++ row :: after →
      CheckedTerminal config (earlier.flatMap domainTerminals ++ before) personality users row := by
    intro before row after hsplit
    obtain ⟨original, -, hrow⟩ := mapEach_row hcheckedTerminals hsplit (Nat.zero_le _)
    exact (validateTerminal_ok hrow).2
  have hterminal : ∀ row ∈ checkedTerminals, ∃ before,
      CheckedTerminal config (earlier.flatMap domainTerminals ++ before) personality users row := by
    intro row hrow
    obtain ⟨before, after, hsplit⟩ := List.append_of_mem hrow
    exact ⟨before, hstepTerminal before row after hsplit⟩
  have hsink : ∀ use ∈ checkedSinks, SinkResolves config.loggingSinks use := by
    intro use huse
    obtain ⟨before, original, -, hrow⟩ := mapEach_mem hcheckedSinks huse
    exact (validateDomainSink_ok hrow).2
  have hsinkNames := map_mapEach hcheckedSinks
    (fun done row updated hrow => (validateDomainSink_ok hrow).1)
  have hterminalNames := map_mapEach hcheckedTerminals
    (fun done row updated hrow => (validateTerminal_ok hrow).1)
  obtain ⟨hunset, hsource⟩ := validateDomainSource_ok hindex
  have hindexKept : (if domain.authenticationSource = none then index else 0)
      = if domain.authenticationSource = none then domain.authenticationSourceIndex else 0 :=
    ite_congr rfl hunset fun _ => rfl
  constructor
  · simp only [FacetConfigDomain.unresolved, hsinks, hterminals, Option.map_some, hsinkNames,
      hterminalNames, List.map_nil, List.nil_append, hindexKept]
  refine ⟨⟨?_, hsink, ?_, hsource, ?_, ?_⟩, ?_, ?_, ?_, ?_, ?_⟩
  · rw [hsameUsers] at hnodup
    exact hnodup
  · intro assignment hmem
    obtain ⟨before, hchecked⟩ := hterminal assignment hmem
    exact hchecked.resolves
  · intro assignment hmem
    obtain ⟨before, hchecked⟩ := hterminal assignment hmem
    have hrunAs := hchecked.runAs
    rwa [hsameUsers] at hrunAs
  · have hkeys : ∀ assignment ∈ checkedTerminals, TerminalKeys personality assignment := by
      intro assignment hmem
      obtain ⟨before, hchecked⟩ := hterminal assignment hmem
      exact hchecked.keys
    rw [hpersonality]
    cases personality with
    | native =>
      refine ⟨?_, hkeys⟩
      by_contra hpid
      exact hnative ⟨rfl, hpid⟩
    | posix =>
      refine ⟨?_, hkeys⟩
      cases hpid : domain.pid1 with
      | none => exact absurd ⟨rfl, .inl hpid⟩ hposix
      | some path =>
        refine ⟨path, rfl, ?_⟩
        intro hempty
        exact hposix ⟨rfl, .inr (by rw [hpid, hempty])⟩
    | vm => exact absurd rfl hvm
  · intro other hother
    rw [hname]
    exact (rejectSameDomain_ok (forM_ok hsame other hother)).2
  · intro other hother
    rw [hid]
    exact (rejectSameDomain_ok (forM_ok hsame other hother)).1
  · intro other hother heq
    exact hfreshInitrd ⟨other, hother, heq.trans hinitrd⟩
  · refine nodup_map_of_fresh (fun before row after hsplit other hother => ?_)
    exact (hstepTerminal before row after hsplit).fresh other (List.mem_append_right _ hother)
  · intro other hother assignment hmem
    obtain ⟨before, hchecked⟩ := hterminal assignment hmem
    exact hchecked.fresh other (List.mem_append_left _ hother)

/-- What the pass over the domains guarantees. -/
structure CheckedDomains (config : FacetSystemConfig) (domains : List FacetConfigDomain) :
    Prop where
  names : (domains.map FacetConfigDomain.name).Nodup
  ids : (domains.map FacetConfigDomain.id).Nodup
  initrds : (domains.map FacetConfigDomain.initrd).Nodup
  sound : ∀ domain ∈ domains, SoundDomain config domain
  assignedOnce : ((domains.flatMap domainTerminals).map (fun assignment =>
    (assignment.seatIndex, assignment.terminalIndex))).Nodup

theorem validateDomains_ok {checked : List FacetConfigDomain}
    (hpass : mapEach (validateDomain config) [] domains = .ok checked)
    (hglobal : (config.users.map FacetConfigUser.name).Nodup) :
    checked.map FacetConfigDomain.unresolved = domains.map FacetConfigDomain.unresolved
      ∧ CheckedDomains config checked := by
  constructor
  · have hsame := map_mapEach hpass (fun _ _ _ hstep => (validateDomain_ok hglobal hstep).1)
    rwa [List.map_nil, List.nil_append] at hsame
  refine ⟨?_, ?_, ?_, ?_, ?_⟩
  · exact mapEach_nodup hpass (fun _ _ _ hstep => (validateDomain_ok hglobal hstep).2.freshName)
  · exact mapEach_nodup hpass (fun _ _ _ hstep => (validateDomain_ok hglobal hstep).2.freshId)
  · exact mapEach_nodup hpass
      (fun _ _ _ hstep => (validateDomain_ok hglobal hstep).2.freshInitrd)
  · intro domain hdomain
    obtain ⟨before, original, -, hstep⟩ := mapEach_mem hpass hdomain
    exact (validateDomain_ok hglobal hstep).2.sound
  · rw [List.map_flatMap]
    refine nodup_flatMap_of_fresh (fun before row after hsplit => ?_)
    obtain ⟨original, -, hstep⟩ := mapEach_row hpass hsplit (Nat.zero_le _)
    have hchecked := (validateDomain_ok hglobal hstep).2
    refine ⟨hchecked.assignedOnce, ?_⟩
    intro pair hpair hsame
    rw [← List.map_flatMap] at hpair
    obtain ⟨other, hother, rfl⟩ := List.mem_map.mp hpair
    obtain ⟨assignment, hassignment, heq⟩ := List.mem_map.mp hsame
    exact hchecked.freshTerminals other hother assignment hassignment heq.symm

theorem validateProvider_ok {source result : FacetConfigAuthenticationSource}
    (hstep : validateProvider domains earlier source = .ok result) :
    result.unresolved = source.unresolved
      ∧ ∃ domain, domains[result.providerDomainIndex]? = some domain
        ∧ domain.id = result.providerDomainId := by
  simp only [validateProvider, bind_eq_ok, required_eq_ok] at hstep
  obtain ⟨index, hindex, hresult⟩ := hstep
  obtain rfl := Except.ok.inj hresult
  obtain ⟨domain, hdomain, hid⟩ := findIdx?_designates hindex
  exact ⟨rfl, domain, hdomain, by simpa using hid⟩

theorem validateProviders_ok {sources checked : List FacetConfigAuthenticationSource}
    (hpass : mapEach (validateProvider domains) [] sources = .ok checked) :
    checked.map FacetConfigAuthenticationSource.unresolved
        = sources.map FacetConfigAuthenticationSource.unresolved
      ∧ checked.map FacetConfigAuthenticationSource.name
        = sources.map FacetConfigAuthenticationSource.name
      ∧ ∀ source ∈ checked, ∃ original ∈ sources, ∃ domain,
        domains[source.providerDomainIndex]? = some domain
          ∧ domain.id = source.providerDomainId
          ∧ source.providerDomainId = original.providerDomainId := by
  have hsame := map_mapEach hpass (fun _ _ _ hstep => (validateProvider_ok hstep).1)
  rw [List.map_nil, List.nil_append] at hsame
  refine ⟨hsame, ?_, ?_⟩
  · have hnames := congrArg (List.map FacetConfigAuthenticationSource.name) hsame
    rw [List.map_map, List.map_map] at hnames
    exact hnames
  · intro source hsource
    obtain ⟨before, original, hmem, hstep⟩ := mapEach_mem hpass hsource
    obtain ⟨hunresolved, domain, hdomain, hid⟩ := validateProvider_ok hstep
    have hprovider : source.unresolved.providerDomainId = original.unresolved.providerDomainId := by
      rw [hunresolved]
    exact ⟨original, hmem, domain, hdomain, hid, hprovider⟩

theorem sourceResolves_of_names {left right : List FacetConfigAuthenticationSource}
    (hnames : left.map FacetConfigAuthenticationSource.name
      = right.map FacetConfigAuthenticationSource.name)
    {domain : FacetConfigDomain} (hright : SourceResolves right domain) :
    SourceResolves left domain := by
  intro name hname
  obtain ⟨source, hsource, hequal⟩ := hright name hname
  have hentry := congrArg (fun names => names[domain.authenticationSourceIndex]?) hnames
  simp only [List.getElem?_map, hsource, Option.map_some, Option.map_eq_some_iff] at hentry
  obtain ⟨other, hother, hsame⟩ := hentry
  exact ⟨other, hother, hsame.trans hequal⟩

/-! ## The whole configuration -/

/-- With a single position in the list, every domain tells by its id whether it
stands there. -/
theorem rootPositions_unique (hroots : (rootPositions domains).length = 1) (otherwise : ℕ) :
    (rootPositions domains).getLast?.getD otherwise < domains.length
      ∧ ∀ index domain, domains[index]? = some domain →
        (domain.id = some 0 ↔ index = (rootPositions domains).getLast?.getD otherwise) := by
  obtain ⟨position, hposition⟩ := List.length_eq_one_iff.mp hroots
  have hmem : ∀ index, index ∈ rootPositions domains
      ↔ ∃ hlength : index < domains.length, (domains[index].id == some 0) = true :=
    fun index => List.mem_findIdxs_iff_exists_getElem_pos
  simp only [hposition, List.mem_singleton] at hmem
  rw [hposition, List.getLast?_singleton, Option.getD_some]
  constructor
  · exact ((hmem position).mp rfl).1
  · intro index domain hdomain
    obtain ⟨hlength, rfl⟩ := List.getElem?_eq_some_iff.mp hdomain
    rw [hmem index]
    simp [hlength]

theorem validateRequired_ok {facetSeen : Bool} {result : FacetSystemConfig}
    (hvalid : validateRequired facetSeen config = .ok result) :
    result.unresolved = config.unresolved ∧ ReferentialIntegrity result := by
  simp only [validateRequired, bind_eq_ok, reject_eq_ok, not_not] at hvalid
  obtain ⟨-, -, sinks, hsinks, seats, hseats, sources, hsources, users, husers, -, -, -, -,
    domains, hdomains, -, hroots, providers, hproviders, -, -, hresult⟩ := hvalid
  obtain rfl := Except.ok.inj hresult
  have hsinksSame := mapEach_eq hsinks (fun _ _ _ hstep => (validateSink_ok hstep).1)
  have hseatsSame := mapEach_eq hseats (fun _ _ _ hstep => (validateSeat_ok hstep).1)
  have hsourcesSame := mapEach_eq hsources (fun _ _ _ hstep => (validateSource_ok hstep).1)
  have husersSame := mapEach_eq husers (fun _ _ _ hstep => (validateGlobalUser_ok hstep).1)
  have hglobal := mapEach_nodup husers (fun _ _ _ hstep => (validateGlobalUser_ok hstep).2)
  obtain ⟨hdomainsSame, hsound⟩ := validateDomains_ok hdomains hglobal
  obtain ⟨hprovidersSame, hnames, hresolve⟩ := validateProviders_ok hproviders
  obtain ⟨hbound, hroot⟩ := rootPositions_unique hroots config.rootIndex
  constructor
  · simp only [FacetSystemConfig.unresolved, hdomainsSame, hprovidersSame, hsinksSame, hseatsSame,
      hsourcesSame, husersSame]
  exact {
    sinkNames := mapEach_nodup hsinks (fun _ _ _ hstep => (validateSink_ok hstep).2)
    seatNames := mapEach_nodup hseats (fun _ _ _ hstep => (validateSeat_ok hstep).2)
    sourceNames := by
      rw [hnames]
      exact mapEach_nodup hsources (fun _ _ _ hstep => (validateSource_ok hstep).2.2)
    userNames := hglobal
    domainNames := hsound.names
    domainIds := hsound.ids
    domainInitrds := hsound.initrds
    root := hroot
    rootBound := hbound
    domains := by
      intro domain hdomain
      have hchecked := hsound.sound domain hdomain
      exact { hchecked with source := sourceResolves_of_names hnames hchecked.source }
    providers := by
      intro source hsource
      obtain ⟨original, horiginal, domain, hdomain, hid, hprovider⟩ := hresolve source hsource
      obtain ⟨before, parsed, -, hstep⟩ := mapEach_mem hsources horiginal
      obtain ⟨id, hgiven⟩ := Option.ne_none_iff_exists'.mp (validateSource_ok hstep).2.1
      exact ⟨domain, id, hdomain, hid.trans (hprovider.trans hgiven), hprovider.trans hgiven⟩
    assignedOnce := hsound.assignedOnce }

/-- An accepted text has tables, and they pass the checks. -/
theorem facetConfigParse_ok {data : List UInt8} (hparse : facetConfigParse data = .ok config) :
    ∃ parser after, parseTables (startCursor data) = .ok (parser, after) ∧
      validateRequired parser.facetSeen parser.config = .ok config := by
  unfold facetConfigParse at hparse
  split at hparse
  · contradiction
  · split at hparse
    · contradiction
    · obtain ⟨⟨parser, after⟩, htables, hvalid⟩ := bind_eq_ok.mp hparse
      exact ⟨parser, after, htables, hvalid⟩

/-- An accepted text gives a configuration with referential integrity, which
but for the stored positions is what the tables of the text say. -/
theorem accepted_config_integrity {data : List UInt8} {config : FacetSystemConfig}
    (hparse : facetConfigParse data = .ok config) :
    ReferentialIntegrity config
      ∧ ∃ parser after, parseTables (startCursor data) = .ok (parser, after)
        ∧ config.unresolved = parser.config.unresolved := by
  obtain ⟨parser, after, htables, hvalid⟩ := facetConfigParse_ok hparse
  obtain ⟨hsame, hintegrity⟩ := validateRequired_ok hvalid
  exact ⟨hintegrity, parser, after, htables, hsame⟩

theorem fallback_accepted : ∃ config, facetConfigParse fallback = .ok config := by
  have haccepted : (facetConfigParse fallback).toBool = true := by decide +kernel
  cases hparse : facetConfigParse fallback with
  | error failure => simp [hparse, Except.toBool] at haccepted
  | ok config => exact ⟨config, rfl⟩

theorem accepted_config_integrity_fallback :
    ∃ config, facetConfigParse fallback = .ok config ∧ ReferentialIntegrity config := by
  obtain ⟨config, hparse⟩ := fallback_accepted
  exact ⟨config, hparse, (accepted_config_integrity hparse).1⟩

end FacetOS.Config
