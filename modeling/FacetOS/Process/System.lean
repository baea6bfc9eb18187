import FacetOS.Posix.Steady

/-!
# The processes of a domain

The state of a process manager changes when `dominit` or a process launches another
one, when a process calls its POSIX view or sets its current directory, and when a
process exits.  A run is any sequence of such events by any of the processes.  A
history also remembers where every process came from and how it was started.
-/

namespace FacetOS.Process

open FileView Initrd Attempts Posix Config Auth Rpc
open Passes (reject reject_eq_ok)

/-! ## Events -/

/-- What `dominit` and the processes ask for.  A process is named by its address; a spawn
without a session is `spawn_inherited`. -/
inductive ProcessEvent
  | launchInitial (path : List UInt8) (arguments : List (List UInt8)) (terminal : ℕ)
      (posixRoot : Option (List UInt8))
  | launch (caller : Option CallerClaims) (path : List UInt8) (arguments : List (List UInt8))
  | launchOnTerminal (session : Option SessionClaims) (terminal : ℕ) (path : List UInt8)
      (arguments : List (List UInt8))
  | spawn (address : ℕ) (session : Option SessionClaims) (path : List UInt8)
      (arguments : List (List UInt8))
  | call (address : ℕ) (call : PosixCall)
  | setCwd (address : ℕ) (directory : DirectoryHandle)
  | exit (address : ℕ) (status : Int32)

/-- What an event answers; a call of a view also tells which nodes it opened. -/
inductive Outcome (Handle : Type)
  | launched (result : Except FacetError (RunningProcess Handle))
  | spawned (result : Except PosixFailure Int32)
  | replied (result : Except PosixFailure PosixReply) (opened : List NodeHandle)
  | directorySet (result : Except FacetError Unit)
  | exited

section System

variable {Iid Handle : Type}
variable (loads : List UInt8 → List (List UInt8) → List (List UInt8) → Bool)

/-- `posix_spawn` and `posix_spawn_inherited` -/
def posixSpawn (address : ℕ) (session : Option SessionClaims) (path : List UInt8)
    (arguments : List (List UInt8)) :
    Attempt (ProcessManager Iid Handle) PosixFailure Int32 := do
  let processes ← query (fun manager => .ok manager.processes)
  let parent ← ofOption (.result .invalidHandle) processes[address]?
  let view ← ofOption (.result .invalidHandle) parent.environment.posixView
  ofExcept (reject (view.controlled = false) (.errno .nosys))
  let path ← mapFailure .result (query (fun manager => resolveSpawnPath manager.stores view path))
  mapFailure .errno (posixSpawnProcess loads parent session path arguments)

variable (manager : ProcessManager Iid Handle)

/-- A call of the view of a process. -/
def processCall (process : RunningProcess Handle)
    (call : PosixCall) : Except PosixFailure PosixReply × ViewState Handle :=
  call.perform manager.domain.system.users ⟨process.environment, manager.stores, []⟩

/-- Give a process another environment. -/
def ProcessManager.setEnvironment (address : ℕ)
    (environment : ProcessEnvironment Handle) : ProcessManager Iid Handle :=
  manager.update address (fun process => { process with environment })

def performCall (address : ℕ) (call : PosixCall) : Outcome Handle × ProcessManager Iid Handle :=
  match manager.processes[address]? with
  | none => (.replied (.error (.result .invalidHandle)) [], manager)
  | some process =>
    let (result, state) := processCall manager process call
    (.replied result state.opened,
      { manager.setEnvironment address state.environment with stores := state.stores })

def performSetCwd (address : ℕ)
    (directory : DirectoryHandle) : Outcome Handle × ProcessManager Iid Handle :=
  match manager.processes[address]? with
  | none => (.directorySet (.error .invalidHandle), manager)
  | some process =>
    match setCwd process.environment directory with
    | .error failure => (.directorySet (.error failure), manager)
    | .ok environment => (.directorySet (.ok ()), manager.setEnvironment address environment)

def step : ProcessEvent → Outcome Handle × ProcessManager Iid Handle
  | .launchInitial path arguments terminal posixRoot =>
    let (result, later) := managerLaunchInitial loads path arguments terminal posixRoot manager
    (.launched result, later)
  | .launch caller path arguments =>
    let (result, later) := managerLaunch loads caller path arguments manager
    (.launched result, later)
  | .launchOnTerminal session terminal path arguments =>
    let (result, later) := managerLaunchOnTerminal loads session terminal path arguments manager
    (.launched result, later)
  | .spawn address session path arguments =>
    let (result, later) := posixSpawn loads address session path arguments manager
    (.spawned result, later)
  | .call address call => performCall manager address call
  | .setCwd address directory => performSetCwd manager address directory
  | .exit address status => (.exited, lifecycleNotifyExit loads address status manager)

/-! ## Histories -/

/-- Where a process came from: launched for a terminal by `dominit`, launched by a native
process, spawned by a process that had these credentials then, or started to replace an
initial process. -/
inductive Origin
  | initial (terminal : ℕ)
  | launched
  | spawned (parent : ℕ) (session : Option SessionClaims) (credentials : Option Credentials)
  | restarted (original : ℕ)

/-- A process as it was when it started. -/
structure Birth (Handle : Type) where
  origin : Origin
  started : RunningProcess Handle

/-- `births` describes the processes of the manager in the order of their addresses. -/
structure History (Iid Handle : Type) where
  manager : ProcessManager Iid Handle
  births : List (Birth Handle)

/-- The first process of a chain of replacements. -/
def original (births : List (Birth Handle)) (address : ℕ) : ℕ :=
  match births[address]?.map Birth.origin with
  | some (.restarted first) => first
  | _ => address

/-- The origin of a process that an event starts. -/
def History.origin (history : History Iid Handle) : ProcessEvent → Origin
  | .launchInitial _ _ terminal _ => .initial terminal
  | .spawn address session _ _ => .spawned address session
      (history.manager.processes[address]?.map (·.environment.credentials))
  | .exit address _ => .restarted (original history.births address)
  | _ => .launched

def History.step (history : History Iid Handle) (event : ProcessEvent) :
    Outcome Handle × History Iid Handle :=
  let (outcome, later) := Process.step loads history.manager event
  let started := later.processes.drop history.manager.processes.length
  (outcome, ⟨later, history.births ++ started.map (⟨history.origin event, ·⟩)⟩)

/-- A domain before its first process. -/
def History.empty (domain : CurrentDomain Iid Handle) : History Iid Handle :=
  ⟨⟨domain, [], 1, []⟩, []⟩

def History.run (history : History Iid Handle) (events : List ProcessEvent) :
    History Iid Handle :=
  (Runs.outputs (History.step loads) history events).2

end System

/-! ## What a step does -/

section Steps

variable {Iid Handle : Type}
variable {loads : List UInt8 → List (List UInt8) → List (List UInt8) → Bool}

/-- What no event changes in a process that is there already. -/
structure Persists (before after : RunningProcess Handle) : Prop where
  environment : Keeps before.environment after.environment
  restart : after.restart = before.restart
  terminal : after.terminalIndex = before.terminalIndex

theorem Persists.refl (process : RunningProcess Handle) : Persists process process :=
  ⟨Keeps.refl _, rfl, rfl⟩

theorem Persists.trans {first second third : RunningProcess Handle}
    (hleft : Persists first second) (hright : Persists second third) : Persists first third :=
  ⟨hleft.environment.trans hright.environment, hright.restart.trans hleft.restart,
    hright.terminal.trans hleft.terminal⟩

/-- The launches that an event may lead to. -/
inductive Asked (manager : ProcessManager Iid Handle) :
    ProcessEvent → LaunchRequest Handle → Prop
  | launchInitial (path : List UInt8) (arguments : List (List UInt8)) (terminal : ℕ)
      (posixRoot : Option (List UInt8)) (session : Option Session)
      (hsession : initialSession manager.domain terminal = .ok session) :
      Asked manager (.launchInitial path arguments terminal posixRoot)
        (initialRequest manager.domain session path arguments terminal posixRoot)
  | launch (caller : Option CallerClaims) (path : List UInt8) (arguments : List (List UInt8))
      (session : SessionClaims) (terminal : ℕ) (sysv : Option (List (List UInt8)))
      (cwd : Option DirectoryHandle) :
      Asked manager (.launch caller path arguments)
        (launchedRequest manager.domain session path arguments terminal sysv cwd)
  | launchOnTerminal (session : SessionClaims) (terminal : ℕ) (path : List UInt8)
      (arguments : List (List UInt8)) :
      Asked manager (.launchOnTerminal (some session) terminal path arguments)
        (launchedRequest manager.domain session path arguments terminal none none)
  | spawn (address : ℕ) (parent : RunningProcess Handle) (view : PosixView)
      (session : Option SessionClaims) (path resolved : List UInt8)
      (arguments : List (List UInt8)) (hparent : manager.processes[address]? = some parent)
      (hview : parent.environment.posixView = some view) (hcontrolled : view.controlled = true)
      (hpath : resolveSpawnPath manager.stores view path = .ok resolved) :
      Asked manager (.spawn address session path arguments)
        (spawnRequest parent session resolved arguments)
  | restart (address : ℕ) (process : RunningProcess Handle) (data : RestartData) (status : Int32)
      (hprocess : manager.processes[address]? = some process)
      (hrestart : process.restart = some data) :
      Asked manager (.exit address status) (restartRequest process data)

/-- What an event does to a manager: the processes that are there persist, and at most one
process starts, as it was asked for. -/
structure Advances (event : ProcessEvent) (before after : ProcessManager Iid Handle) : Prop where
  domain : after.domain = before.domain
  stores : Grows before.stores after.stores
  processes : ∃ kept started, after.processes = kept ++ started
    ∧ List.Forall₂ Persists before.processes kept
    ∧ (started = [] ∨ ∃ process request, started = [process]
      ∧ Asked before event request ∧ Launched before.domain request after.stores process)

theorem forall₂_persists_refl (processes : List (RunningProcess Handle)) :
    List.Forall₂ Persists processes processes :=
  List.forall₂_same.mpr (fun process _ => Persists.refl process)

theorem advances_refl (event : ProcessEvent) (manager : ProcessManager Iid Handle) :
    Advances event manager manager :=
  ⟨rfl, Std.Refl.refl _, _, [], (List.append_nil _).symm, forall₂_persists_refl _, .inl rfl⟩

variable (loads) in
/-- Nothing happens, or a launch is tried that the event asks for. -/
def Launches (event : ProcessEvent) (before after : ProcessManager Iid Handle) : Prop :=
  after = before ∨
    ∃ request, Asked before event request ∧ after = (launchProcess loads request before).2

theorem Launches.advances {event : ProcessEvent} {before after : ProcessManager Iid Handle}
    (hlaunches : Launches loads event before after) : Advances event before after := by
  obtain rfl | ⟨request, hasked, rfl⟩ := hlaunches
  · exact advances_refl event after
  cases launchProcess_cases loads request before with
  | inl hfailed =>
    obtain ⟨failure, later, hrun, hquiet⟩ := hfailed
    rw [hrun]
    refine ⟨hquiet.domain, hquiet.stores, _, [], ?_, forall₂_persists_refl _, .inl rfl⟩
    exact hquiet.processes.trans (List.append_nil _).symm
  | inr hstarted =>
    obtain ⟨process, later, hrun, hlaunched, hdomain, hprocesses, hgrows⟩ := hstarted
    rw [hrun]
    exact ⟨hdomain, hgrows, _, [process], hprocesses, forall₂_persists_refl _,
      .inr ⟨process, request, rfl, hasked, hlaunched⟩⟩

theorem launches_managerLaunchInitial (path : List UInt8) (arguments : List (List UInt8))
    (terminal : ℕ) (posixRoot : Option (List UInt8)) (manager : ProcessManager Iid Handle) :
    Launches loads (.launchInitial path arguments terminal posixRoot) manager
      (managerLaunchInitial loads path arguments terminal posixRoot manager).2 := by
  refine after_bind (moves_query _) (.inl rfl) (fun domain hdomain => ?_)
  obtain rfl := Except.ok.inj (query_eq_ok.mp hdomain).1
  refine after_bind (moves_ofExcept _) (.inl rfl) (fun session hsession => ?_)
  exact .inr ⟨_, .launchInitial _ _ _ _ _ (ofExcept_eq_ok.mp hsession).1, rfl⟩

theorem launches_managerLaunch (caller : Option CallerClaims) (path : List UInt8)
    (arguments : List (List UInt8)) (manager : ProcessManager Iid Handle) :
    Launches loads (.launch caller path arguments) manager
      (managerLaunch loads caller path arguments manager).2 := by
  refine after_bind (moves_query _) (.inl rfl) (fun domain hdomain => ?_)
  obtain rfl := Except.ok.inj (query_eq_ok.mp hdomain).1
  refine after_bind (moves_ofOption _ _) (.inl rfl) (fun claims _ => ?_)
  refine after_bind (moves_orFail.mpr (moves_ofExcept _)) (.inl rfl) (fun session _ => ?_)
  refine after_bind (moves_orFail.mpr (moves_ofExcept _)) (.inl rfl) (fun sysv _ => ?_)
  refine after_bind (moves_orFail.mpr (moves_ofExcept _)) (.inl rfl) (fun terminal _ => ?_)
  refine after_bind (moves_orFail.mpr (moves_ofExcept _)) (.inl rfl) (fun cwd _ => ?_)
  refine after_bind (moves_ofOption _ _) (.inl rfl) (fun session _ => ?_)
  refine after_bind (moves_orFail.mpr (moves_ofExcept _)) (.inl rfl) (fun _ _ => ?_)
  refine after_bind (moves_ofExcept _) (.inl rfl) (fun _ _ => ?_)
  exact .inr ⟨_, .launch _ _ _ _ _ _ _, rfl⟩

theorem launches_managerLaunchOnTerminal (session : Option SessionClaims) (terminal : ℕ)
    (path : List UInt8) (arguments : List (List UInt8)) (manager : ProcessManager Iid Handle) :
    Launches loads (.launchOnTerminal session terminal path arguments) manager
      (managerLaunchOnTerminal loads session terminal path arguments manager).2 := by
  refine after_bind (moves_query _) (.inl rfl) (fun domain hdomain => ?_)
  obtain rfl := Except.ok.inj (query_eq_ok.mp hdomain).1
  refine after_bind (moves_ofOption _ _) (.inl rfl) (fun claims hclaims => ?_)
  obtain ⟨rfl, -⟩ := ofOption_eq_ok.mp hclaims
  refine after_bind (moves_ofExcept _) (.inl rfl) (fun _ _ => ?_)
  exact .inr ⟨_, .launchOnTerminal _ _ _ _, rfl⟩

theorem launches_posixSpawn (address : ℕ) (session : Option SessionClaims) (path : List UInt8)
    (arguments : List (List UInt8)) (manager : ProcessManager Iid Handle) :
    Launches loads (.spawn address session path arguments) manager
      (posixSpawn loads address session path arguments manager).2 := by
  refine after_bind (moves_query _) (.inl rfl) (fun processes hprocesses => ?_)
  obtain rfl := Except.ok.inj (query_eq_ok.mp hprocesses).1
  refine after_bind (moves_ofOption _ _) (.inl rfl) (fun parent hparent => ?_)
  refine after_bind (moves_ofOption _ _) (.inl rfl) (fun view hview => ?_)
  refine after_bind (moves_ofExcept _) (.inl rfl) (fun _ hcontrolled => ?_)
  refine after_bind (moves_mapFailure.mpr (moves_query _)) (.inl rfl) (fun resolved hresolved => ?_)
  refine .inr ⟨_, .spawn _ _ view _ _ _ _ (ofOption_eq_ok.mp hparent).1 (ofOption_eq_ok.mp hview).1
    (eq_true_of_ne_false (reject_eq_ok.mp (ofExcept_eq_ok.mp hcontrolled).1))
    (query_eq_ok.mp (mapFailure_eq_ok.mp hresolved)).1, ?_⟩
  change (posixSpawnProcess loads parent session resolved arguments manager).2 = _
  unfold posixSpawnProcess
  split <;> simp [*]

theorem forall₂_modify {α β : Type} {related : α → β → Prop} {left : List α} {right : List β}
    (hlists : List.Forall₂ related left right) {address : ℕ} {change : α → α} {other : β → β}
    (hchange : ∀ a b, left[address]? = some a → right[address]? = some b → related a b →
      related (change a) (other b)) :
    List.Forall₂ related (left.modify address change) (right.modify address other) := by
  rw [List.forall₂_iff_get] at hlists ⊢
  refine ⟨by simpa using hlists.1, fun index hleft hright => ?_⟩
  rw [List.length_modify] at hleft hright
  have hrelated := hlists.2 index hleft hright
  simp only [List.get_eq_getElem, List.getElem_modify] at hrelated ⊢
  split
  · rename_i heq
    subst heq
    exact hchange _ _ (List.getElem?_eq_getElem hleft) (List.getElem?_eq_getElem hright) hrelated
  · exact hrelated

/-- A change of one process that lets it persist. -/
theorem forall₂_persists_modify {processes : List (RunningProcess Handle)} {address : ℕ}
    {change : RunningProcess Handle → RunningProcess Handle}
    (hchange : ∀ process, processes[address]? = some process → Persists process (change process)) :
    List.Forall₂ Persists processes (processes.modify address change) := by
  have hlists := @forall₂_modify _ _ Persists _ _ (forall₂_persists_refl processes) address id
    change fun process other hprocess hother _ => by
      obtain rfl := Option.some.inj (hprocess.symm.trans hother)
      exact hchange process hprocess
  rwa [List.modify_id] at hlists

theorem advances_performCall (address : ℕ) (call : PosixCall)
    (manager : ProcessManager Iid Handle) :
    Advances (.call address call) manager (performCall manager address call).2 := by
  unfold performCall
  cases hprocess : manager.processes[address]? with
  | none => exact advances_refl _ _
  | some process =>
    have hsteady := steady_perform manager.domain.system.users call
      ⟨process.environment, manager.stores, []⟩
    refine ⟨rfl, hsteady.stores, _, [], (List.append_nil _).symm, ?_, .inl rfl⟩
    refine forall₂_persists_modify (fun found hfound => ?_)
    obtain rfl := Option.some.inj (hprocess.symm.trans hfound)
    exact ⟨hsteady.environment, rfl, rfl⟩

theorem advances_performSetCwd (address : ℕ) (directory : DirectoryHandle)
    (manager : ProcessManager Iid Handle) :
    Advances (.setCwd address directory) manager (performSetCwd manager address directory).2 := by
  unfold performSetCwd
  cases hprocess : manager.processes[address]? with
  | none => exact advances_refl _ _
  | some process =>
    dsimp only
    split
    · exact advances_refl _ _
    · rename_i environment hset
      refine ⟨rfl, Std.Refl.refl _, _, [], (List.append_nil _).symm, ?_, .inl rfl⟩
      refine forall₂_persists_modify (fun found hfound => ?_)
      obtain rfl := Option.some.inj (hprocess.symm.trans hfound)
      exact ⟨keeps_setCwd hset, rfl, rfl⟩

theorem forall₂_persists_trans {first second third : List (RunningProcess Handle)}
    (hleft : List.Forall₂ Persists first second) (hright : List.Forall₂ Persists second third) :
    List.Forall₂ Persists first third := by
  induction hleft generalizing third with
  | nil => exact hright
  | cons hhead _ ih =>
    cases hright with
    | cons hnext htail => exact .cons (hhead.trans hnext) (ih htail)

theorem modify_append {α : Type} {left right : List α} {address : ℕ}
    (haddress : address < left.length) (change : α → α) :
    (left ++ right).modify address change = left.modify address change ++ right := by
  ext1 index
  by_cases hindex : index < left.length
  · rw [List.getElem?_append_left (by simpa using hindex), List.getElem?_modify,
      List.getElem?_modify, List.getElem?_append_left hindex]
  · have hother : address ≠ index := fun heq => hindex (heq ▸ haddress)
    rw [not_lt] at hindex
    rw [List.getElem?_append_right (by simpa using hindex), List.getElem?_modify,
      List.getElem?_append_right hindex, List.length_modify]
    simp [hother]

theorem advances_lifecycleNotifyExit (address : ℕ) (status : Int32)
    (manager : ProcessManager Iid Handle) :
    Advances (.exit address status) manager (lifecycleNotifyExit loads address status manager) := by
  unfold lifecycleNotifyExit
  cases hprocess : manager.processes[address]? with
  | none => exact advances_refl _ _
  | some process =>
    have hexited : List.Forall₂ Persists manager.processes
        (manager.processes.modify address
          (fun process => { process with exitStatus := status, running := false })) :=
      forall₂_persists_modify (fun _ _ => ⟨Keeps.refl _, rfl, rfl⟩)
    dsimp only
    cases hrestart : process.restart with
    | none => exact ⟨rfl, Std.Refl.refl _, _, [], (List.append_nil _).symm, hexited, .inl rfl⟩
    | some data =>
      have hasked : Asked manager (.exit address status) (restartRequest process data) :=
        .restart _ _ _ _ hprocess hrestart
      have hcleared : ∀ processes : List (RunningProcess Handle), List.Forall₂ Persists processes
          (processes.modify address (fun process => { process with platformState := none })) :=
        fun _ => forall₂_persists_modify (fun _ _ => ⟨Keeps.refl _, rfl, rfl⟩)
      let exited := manager.update address
        (fun process => { process with exitStatus := status, running := false })
      cases launchProcess_cases loads (restartRequest process data) exited with
      | inl hfailed =>
        obtain ⟨failure, later, hrun, hquiet⟩ := hfailed
        dsimp only
        rw [hrun]
        refine ⟨hquiet.domain, hquiet.stores, _, [], (List.append_nil _).symm, ?_, .inl rfl⟩
        have hlater : List.Forall₂ Persists manager.processes later.processes := by
          rw [hquiet.processes]
          exact hexited
        exact forall₂_persists_trans hlater (hcleared later.processes)
      | inr hstarted =>
        obtain ⟨replacement, later, hrun, hlaunched, hdomain, hprocesses, hgrows⟩ := hstarted
        dsimp only
        rw [hrun]
        have haddress : address < exited.processes.length := by
          have hlength := hexited.length_eq
          exact hlength ▸ (List.getElem?_eq_some_iff.mp hprocess).1
        refine ⟨hdomain, hgrows, _, [replacement], ?_,
          forall₂_persists_trans hexited (hcleared exited.processes),
          .inr ⟨replacement, _, rfl, hasked, hlaunched⟩⟩
        change later.processes.modify address _ = _
        rw [hprocesses, modify_append haddress]

theorem advances_step (manager : ProcessManager Iid Handle) (event : ProcessEvent) :
    Advances event manager (step loads manager event).2 := by
  cases event with
  | launchInitial path arguments terminal posixRoot =>
    exact (launches_managerLaunchInitial path arguments terminal posixRoot manager).advances
  | launch caller path arguments =>
    exact (launches_managerLaunch caller path arguments manager).advances
  | launchOnTerminal session terminal path arguments =>
    exact (launches_managerLaunchOnTerminal session terminal path arguments manager).advances
  | spawn address session path arguments =>
    exact (launches_posixSpawn address session path arguments manager).advances
  | call address call => exact advances_performCall address call manager
  | setCwd address directory => exact advances_performSetCwd address directory manager
  | exit address status => exact advances_lifecycleNotifyExit address status manager

end Steps

end FacetOS.Process
