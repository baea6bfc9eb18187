import FacetOS.Process.Lineage
import FacetOS.Process.DomainCheck

/-!
# Confinement of capabilities

Which names a process resolves is settled when it is launched.  The authority of a
domain, under `auth` and `security`, is meant for the initial processes that were
configured without a session, and a process behind a POSIX view is meant to resolve
nothing but that view.  The launches do not keep to this: the capabilities of a
process follow the personality of its domain and not the view of its terminal, every
process gets `files` and `cwd`, and a replacement is started without the session of
the process that it replaces.
-/

namespace FacetOS.Process

open FileView Initrd Attempts Posix Config Auth Rpc

variable {Iid Handle : Type}
variable {loads : List UInt8 → List (List UInt8) → List (List UInt8) → Bool}

/-! ## Specification -/

/-- The view that the configuration gives a terminal. -/
def terminalView (domain : FacetConfigDomain) (terminal : ℕ) : Option FacetConfigTerminalView :=
  ((domainTerminals domain)[terminal]?).bind FacetConfigTerminalAssignment.view

/-- The terminal for which a process, or the first one that it replaces, was launched. -/
def initialTerminal (births : List (Birth Handle)) (address : ℕ) : Option ℕ :=
  match births[original births address]?.map Birth.origin with
  | some (.initial terminal) => some terminal
  | _ => none

/-- The processes of a POSIX domain, the initial processes of terminals with a POSIX view, and
all that are spawned from these. -/
inductive Confined (domain : CurrentDomain Iid Handle) (births : List (Birth Handle)) : ℕ → Prop
  | domain (address : ℕ) (hposix : domain.parsed.personality = some .posix) :
      Confined domain births address
  | terminal (address terminal : ℕ) (hinitial : initialTerminal births address = some terminal)
      (hview : terminalView domain.parsed terminal = some .posix) :
      Confined domain births address
  | spawned (address parent : ℕ) (birth : Birth Handle) (session : Option SessionClaims)
      (credentials : Option Credentials) (hbirth : births[address]? = some birth)
      (horigin : birth.origin = .spawned parent session credentials)
      (hparent : Confined domain births parent) : Confined domain births address

/-- Authority is where it was configured, and confined processes resolve only their view. -/
structure CapabilityConfined (history : History Iid Handle) : Prop where
  authority : ∀ (address : ℕ) (process : RunningProcess Handle),
    history.manager.processes[address]? = some process →
    Resolves process.environment (ascii "auth") ∨ Resolves process.environment (ascii "security") →
    history.manager.domain.native = true ∧ ∃ terminal,
      initialTerminal history.births address = some terminal
        ∧ terminalRunAs history.manager.domain.parsed terminal = none
  confined : ∀ (address : ℕ) (process : RunningProcess Handle),
    history.manager.processes[address]? = some process →
    Confined history.manager.domain history.births address →
    ∀ name, Resolves process.environment name → name = ascii "posix"

/-! ## The names of a process -/

/-- The names that have nothing to do with authority. -/
def ordinaryNames : List (List UInt8) :=
  delegatedNames ++ [ascii "files", ascii "session", ascii "cwd", ascii "posix",
    ascii "terminal.control", ascii "stdin", ascii "stdout", ascii "stderr",
    ascii "process.lifecycle", ascii "memory.pages"]

theorem ite_subset {condition : Prop} [Decidable condition] {left right names : List (List UInt8)}
    (hleft : left ⊆ names) (hright : right ⊆ names) :
    (if condition then left else right) ⊆ names := by
  split
  · exact hleft
  · exact hright

theorem resolvable_subset (domain : CurrentDomain Iid Handle) {names more : List (List UInt8)}
    (hnames : names ⊆ more) : resolvable domain names ⊆ more :=
  fun _ hname => hnames (List.mem_of_mem_filter hname)

variable {address terminal : ℕ} {domain : CurrentDomain Iid Handle}
  {process : RunningProcess Handle}

theorem serviceNames_ordinary {request : LaunchRequest Handle}
    (hrequest : ¬((request.initial && request.session.isNone) = true
      ∧ request.nativeCapabilities = true)) : serviceNames domain request ⊆ ordinaryNames := by
  have hnil : [] ⊆ ordinaryNames := List.nil_subset _
  have hdelegated : delegatedNames ⊆ ordinaryNames := List.subset_append_left _ _
  unfold serviceNames createdNames terminalNames
  rw [if_neg hrequest]
  refine List.append_subset.mpr ⟨List.append_subset.mpr ⟨List.append_subset.mpr ⟨?_, ?_⟩, ?_⟩, ?_⟩
  · refine List.append_subset.mpr ⟨List.append_subset.mpr ⟨List.append_subset.mpr ⟨?_, ?_⟩, ?_⟩, ?_⟩
    · exact List.append_subset.mpr ⟨resolvable_subset domain (ite_subset hdelegated hnil),
        resolvable_subset domain hnil⟩
    · decide
    · exact ite_subset (by decide) hnil
    · decide
  · exact List.append_subset.mpr ⟨ite_subset hnil (by decide), ite_subset (by decide) hnil⟩
  · exact ite_subset (by decide) hnil
  · exact ite_subset (by decide) hnil

/-- Authority comes with a launch of an initial process of a native domain without a
session. -/
theorem Launched.authority {request : LaunchRequest Handle} {stores : Stores}
    (hlaunched : Launched domain request stores process)
    (hresolves : Resolves process.environment (ascii "auth")
      ∨ Resolves process.environment (ascii "security")) :
    request.initial = true ∧ request.session = none ∧ request.nativeCapabilities = true := by
  have hordinary : ascii "auth" ∉ ordinaryNames ∧ ascii "security" ∉ ordinaryNames := by decide
  rw [resolves_iff, resolves_iff, hlaunched.completed.shape.names] at hresolves
  by_contra hother
  have hrequest : ¬((request.initial && request.session.isNone) = true
      ∧ request.nativeCapabilities = true) := by
    intro hall
    rw [Bool.and_eq_true, Option.isNone_iff_eq_none] at hall
    exact hother ⟨hall.1.1, hall.1.2, hall.2⟩
  cases hresolves with
  | inl hauth => exact hordinary.1 (serviceNames_ordinary hrequest hauth.2)
  | inr hsecurity => exact hordinary.2 (serviceNames_ordinary hrequest hsecurity.2)

/-! ## Capabilities follow the domain -/

section Native

variable {history : History Iid Handle}

/-- The restart data of a process that was launched for a terminal has the capabilities of the
domain. -/
theorem Recorded.native_restart (hrecorded : Recorded history) {birth : Birth Handle}
    (hbirth : birth ∈ history.births) (horigin : birth.origin = .initial terminal)
    {data : RestartData} (hdata : birth.started.restart = some data) :
    data.nativeCapabilities = history.manager.domain.native := by
  obtain ⟨request, htraced, hlaunched⟩ := hrecorded.launched birth hbirth
  rw [horigin] at htraced
  cases htraced with
  | initial terminal session path arguments posixRoot hsession =>
    obtain ⟨found, started, hfound, -, -, -, -, -, -, -, hnative⟩ :=
      hlaunched.restart_eq_some rfl rfl of_decide_eq_true
    obtain rfl := Option.some.inj (hfound.symm.trans hdata)
    exact hnative

/-- Every process has native capabilities exactly if its domain is native. -/
def NativeByDomain (history : History Iid Handle) : Prop :=
  ∀ birth ∈ history.births,
    birth.started.environment.nativeCapabilities = history.manager.domain.native

theorem NativeByDomain.continues {event : ProcessEvent} {later : History Iid Handle}
    (hnative : NativeByDomain history) (hrecorded : Recorded history)
    (hcontinues : Continues event history later) : NativeByDomain later := by
  unfold NativeByDomain
  rw [hcontinues.domain]
  refine hcontinues.forall_births hnative (fun process request _ htraced hlaunched => ?_)
  refine hlaunched.completed.shape.native.trans ?_
  generalize history.origin event = origin at htraced
  cases htraced with
  | initial terminal session path arguments posixRoot hsession => rfl
  | launched session path arguments terminal sysv cwd => rfl
  | spawned address birth parent session path arguments hbirth hparent =>
    exact hparent.environment.native.trans (hnative birth (List.mem_of_getElem? hbirth))
  | restarted first terminal birth exited data hbirth horigin hdata hterminal =>
    exact hrecorded.native_restart (List.mem_of_getElem? hbirth) horigin hdata

end Native

/-! ## Runs that confine -/

/-- An event starts no process that is to be confined, and replaces none that was launched
with a session. -/
def StartsUnconfined (history : History Iid Handle) (event : ProcessEvent) : Prop :=
  history.manager.domain.parsed.personality ≠ some .posix
    ∧ match event with
      | .launchInitial _ _ terminal _ =>
        terminalView history.manager.domain.parsed terminal ≠ some .posix
      | .exit address _ => ∀ terminal, initialTerminal history.births address = some terminal →
          terminalRunAs history.manager.domain.parsed terminal = none
      | _ => True

/-- What the condition leaves in a history. -/
structure Unconfined (history : History Iid Handle) : Prop where
  recorded : Recorded history
  native : NativeByDomain history
  births : ∀ birth ∈ history.births,
    history.manager.domain.parsed.personality ≠ some .posix
      ∧ (∀ terminal, birth.origin = .initial terminal →
        terminalView history.manager.domain.parsed terminal ≠ some .posix)
      ∧ ∀ first, birth.origin = .restarted first → ∃ found ∈ history.births[first]?, ∃ terminal,
        found.origin = .initial terminal
          ∧ terminalView history.manager.domain.parsed terminal ≠ some .posix
          ∧ terminalRunAs history.manager.domain.parsed terminal = none

theorem unconfined_empty (domain : CurrentDomain Iid Handle) :
    Unconfined (History.empty domain) :=
  ⟨recorded_empty domain, fun _ hbirth => absurd hbirth List.not_mem_nil,
    fun _ hbirth => absurd hbirth List.not_mem_nil⟩

section Unconfined

variable {history : History Iid Handle}

theorem initialTerminal_eq_some {births : List (Birth Handle)} {first : ℕ} {found : Birth Handle}
    (hfirst : original births address = first) (hfound : births[first]? = some found)
    (horigin : found.origin = .initial terminal) :
    initialTerminal births address = some terminal := by
  simp [initialTerminal, hfirst, hfound, horigin]

theorem Unconfined.step (hunconfined : Unconfined history) {event : ProcessEvent}
    (hcondition : StartsUnconfined history event) : Unconfined (history.step loads event).2 := by
  have hcontinues := hunconfined.recorded.continues loads event
  refine ⟨hcontinues.recorded hunconfined.recorded,
    hunconfined.native.continues hunconfined.recorded hcontinues, ?_⟩
  rw [hcontinues.domain]
  refine hcontinues.forall_births ?_ ?_
  · intro birth hbirth
    obtain ⟨hdomain, hinitial, hrestarted⟩ := hunconfined.births birth hbirth
    refine ⟨hdomain, hinitial, fun first horigin => ?_⟩
    obtain ⟨found, hfound, terminal, hterminal⟩ := hrestarted first horigin
    exact ⟨found, hcontinues.getElem?_births hfound, terminal, hterminal⟩
  · intro process request hasked htraced hlaunched
    refine ⟨hcondition.1, ?_, ?_⟩
    · intro terminal horigin
      obtain ⟨path, arguments, posixRoot, rfl⟩ := origin_eq_initial horigin
      exact hcondition.2
    · intro first horigin
      obtain ⟨address, status, rfl, rfl⟩ := origin_eq_restarted horigin
      cases hasked with
      | restart address exited data status hprocess hdata =>
        obtain ⟨found, terminal, hfound, hinitial, -⟩ :=
          hunconfined.recorded.original hprocess hdata
        have hterminal := initialTerminal_eq_some rfl hfound hinitial
        have hview := (hunconfined.births found (List.mem_of_getElem? hfound)).2.1
        exact ⟨found, hcontinues.getElem?_births hfound, terminal, hinitial,
          hview terminal hinitial, hcondition.2 terminal hterminal⟩

/-- Nothing is to be confined. -/
theorem Unconfined.not_confined (hunconfined : Unconfined history)
    (haddress : address < history.births.length) :
    ¬Confined history.manager.domain history.births address := by
  intro hconfined
  induction hconfined with
  | domain address hposix =>
    exact (hunconfined.births _ (List.getElem_mem haddress)).1 hposix
  | terminal address terminal hinitial hview =>
    unfold initialTerminal at hinitial
    split at hinitial
    · rename_i given hfound
      obtain rfl := Option.some.inj hinitial
      obtain ⟨found, hbirth, horigin⟩ := Option.map_eq_some_iff.mp hfound
      exact (hunconfined.births found (List.mem_of_getElem? hbirth)).2.1 _ horigin hview
    · contradiction
  | spawned address parent birth session credentials hbirth horigin hparent ih =>
    obtain ⟨request, htraced, -⟩ :=
      hunconfined.recorded.launched birth (List.mem_of_getElem? hbirth)
    rw [horigin] at htraced
    cases htraced with
    | spawned _ found process _ path arguments hfound hpersists =>
      exact ih (List.getElem?_eq_some_iff.mp hfound).1

theorem initialSession_eq_none (hsession : initialSession domain terminal = .ok none) :
    terminalRunAs domain.parsed terminal = none := by
  unfold initialSession at hsession
  cases hrunAs : terminalRunAs domain.parsed terminal with
  | none => rfl
  | some name =>
    rw [hrunAs] at hsession
    cases hfound : sessionForUser domain.system domain.domainId name <;>
      simp [hfound, Except.map] at hsession

/-- Authority is found only where it was configured. -/
theorem Unconfined.authority (hunconfined : Unconfined history)
    (hprocess : history.manager.processes[address]? = some process)
    (hresolves : Resolves process.environment (ascii "auth")
      ∨ Resolves process.environment (ascii "security")) :
    history.manager.domain.native = true ∧ ∃ terminal,
      initialTerminal history.births address = some terminal
        ∧ terminalRunAs history.manager.domain.parsed terminal = none := by
  obtain ⟨birth, hbirth, hpersists⟩ := hunconfined.recorded.birth_of_process hprocess
  have hmember := List.mem_of_getElem? hbirth
  obtain ⟨request, htraced, hlaunched⟩ := hunconfined.recorded.launched birth hmember
  rw [resolves_iff, resolves_iff, hpersists.environment.names, ← resolves_iff, ← resolves_iff]
    at hresolves
  obtain ⟨hinitial, hsession, hnative⟩ := hlaunched.authority hresolves
  have hdomain : history.manager.domain.native = true := by
    rw [← hunconfined.native birth hmember, hlaunched.completed.shape.native, hnative]
  refine ⟨hdomain, ?_⟩
  generalize hkind : birth.origin = origin at htraced
  cases htraced with
  | initial terminal session path arguments posixRoot hfound =>
    have hfirst : original history.births address = address := by
      simp [original, hbirth, hkind]
    have hnone : session = none := Option.map_eq_none_iff.mp hsession
    rw [hnone] at hfound
    exact ⟨terminal, initialTerminal_eq_some hfirst hbirth hkind, initialSession_eq_none hfound⟩
  | launched session path arguments terminal sysv cwd => exact absurd hinitial Bool.false_ne_true
  | spawned parent found process session path arguments hfound hparent =>
    exact absurd hinitial Bool.false_ne_true
  | restarted first terminal found exited data hfound horigin hdata hterminal =>
    have hfirst : original history.births address = first := by
      simp [original, hbirth, hkind]
    obtain ⟨again, hagain, configured, hconfigured, -, hrunAs⟩ :=
      (hunconfined.births birth hmember).2.2 first hkind
    exact ⟨configured, initialTerminal_eq_some hfirst hagain hconfigured, hrunAs⟩

end Unconfined

/-- In every run that starts nothing that is to be confined and replaces nothing that was
launched with a session, authority stays where it was configured. -/
theorem capabilities_confined_along {domain : CurrentDomain Iid Handle}
    {events : List ProcessEvent}
    (halong : Runs.Along (History.step loads) StartsUnconfined (History.empty domain) events) :
    CapabilityConfined ((History.empty domain).run loads events) := by
  have hunconfined : Unconfined ((History.empty domain).run loads events) :=
    Runs.invariant_along (fun _ _ hstate hcondition => hstate.step hcondition)
      (unconfined_empty domain) halong
  refine ⟨fun address process hprocess hresolves => hunconfined.authority hprocess hresolves, ?_⟩
  intro address process hprocess hconfined
  obtain ⟨birth, hbirth, -⟩ := hunconfined.recorded.birth_of_process hprocess
  exact absurd hconfined (hunconfined.not_confined (List.getElem?_eq_some_iff.mp hbirth).1)

/-! ## Runs that do not -/

/-- A user of a domain with native and POSIX programs. -/
def plainUser : FacetConfigUser where
  name := some (ascii "u")
  passwordHash := some (ascii "x")
  admin := some false
  uid := some 5
  gid := some 5
  homePath := some [slash]
  nativeShell := some (ascii "/program")
  posixShell := some (ascii "/program")

/-- The archive of a native domain: a program and the directory of its POSIX programs. -/
def nativeArchive : FacetInitrd :=
  programArchive.append ⟨ascii "/posix", [], true, 0o040755, 0, 0⟩ ⟨rfl, by decide⟩ (by decide)

/-- A native domain in which `auth` is published, with a terminal that runs as the given
user. -/
def nativeDomain (runAs : Option (List UInt8)) : CurrentDomain Unit Unit where
  system := { users := [plainUser], domains := [parsed] }
  parsed := parsed
  initrd := nativeArchive
  interfaces := fun _ => ()
  environment := ⟨none, none, none, none, [⟨ascii "auth", (), (), by decide, by decide⟩]⟩
  terminals := [0]
where
  parsed : FacetConfigDomain :=
    { id := some 1, personality := some .native
      terminals := some [{ reference := some (ascii "s"), view := some .native, runAs }] }

/-- The initial process of the terminal is launched and exits. -/
def restartEvents : List ProcessEvent :=
  [.launchInitial (ascii "/program") [] 0 (some (ascii "/posix")), .exit 0 0]

theorem capabilities_confined_restart :
    ((History.empty (nativeDomain none)).run (fun _ _ _ => true) restartEvents).births.length = 2
      ∧ CapabilityConfined
        ((History.empty (nativeDomain none)).run (fun _ _ _ => true) restartEvents) := by
  refine ⟨by decide +kernel, capabilities_confined_along ?_⟩
  refine ⟨⟨by decide, by decide⟩, ⟨by decide +kernel, ?_⟩, trivial⟩
  intro terminal _
  rw [((recorded_empty (nativeDomain none)).continues _ _).domain]
  cases terminal <;> rfl

/-- A process resolves a name if the lookup says so. -/
theorem exists_resolves {processes : List (RunningProcess Handle)} {name : List UInt8}
    (hfound : (processes[address]?.any (fun process => (resolve process.environment name).isOk))
      = true) :
    ∃ process, processes[address]? = some process ∧ Resolves process.environment name := by
  obtain ⟨process, hprocess, hok⟩ := (Option.any_eq_true _ _).mp hfound
  refine ⟨process, hprocess, ?_⟩
  cases hresolve : resolve process.environment name with
  | error failure => simp [hresolve, Except.isOk, Except.toBool] at hok
  | ok object => exact ⟨object, hresolve⟩

/-- The same run where the terminal runs as the user. -/
def restartHistory : History Unit Unit :=
  (History.empty (nativeDomain (some (ascii "u")))).run (fun _ _ _ => true) restartEvents

/-- A POSIX domain with its first process. -/
def posixHistory : History Unit Unit :=
  (History.empty (spawnDomain 1)).run (fun _ _ _ => true)
    [.launchInitial (ascii "/program") [] 0 (some [slash])]

/-- A replacement resolves `auth` although its terminal runs as a user, and the first process of
a POSIX domain resolves `files`. -/
theorem capabilities_escape :
    ¬CapabilityConfined restartHistory ∧ ¬CapabilityConfined posixHistory := by
  constructor
  · intro hconfined
    have hauth : (restartHistory.manager.processes[1]?.any (fun process =>
        (resolve process.environment (ascii "auth")).isOk)) = true := by decide +kernel
    have hfirst : initialTerminal restartHistory.births 1 = some 0 := by decide +kernel
    obtain ⟨process, hprocess, hresolves⟩ := exists_resolves hauth
    obtain ⟨-, terminal, hterminal, hrunAs⟩ :=
      hconfined.authority 1 process hprocess (.inl hresolves)
    obtain rfl := Option.some.inj (hfirst.symm.trans hterminal)
    exact absurd hrunAs (by decide +kernel)
  · intro hconfined
    have hfiles : (posixHistory.manager.processes[0]?.any (fun process =>
        (resolve process.environment (ascii "files")).isOk)) = true := by decide +kernel
    have hposix : posixHistory.manager.domain.parsed.personality = some .posix := by
      decide +kernel
    obtain ⟨process, hprocess, hresolves⟩ := exists_resolves hfiles
    exact absurd (hconfined.confined 0 process hprocess (.domain 0 hposix) _ hresolves) (by decide)

end FacetOS.Process
