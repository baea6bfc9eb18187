import FacetOS.Process.System

/-!
# Where processes come from

In every history the births describe the processes that are there: each was launched
by a request that belongs to its origin, and what was settled at its start has not
changed since.  A replacement is started with the restart data of the first process
of its chain.
-/

namespace FacetOS.Process

open FileView Initrd Attempts Posix Config Auth Rpc

variable {Iid Handle : Type}
variable {loads : List UInt8 → List (List UInt8) → List (List UInt8) → Bool}
  {process : RunningProcess Handle} {request : LaunchRequest Handle}

theorem Launched.grow {domain : CurrentDomain Iid Handle} {before after : Stores}
    (hlaunched : Launched domain request before process) (hgrows : Grows before after) :
    Launched domain request after process where
  credentials := hlaunched.credentials
  completed := hlaunched.completed
  owned := by
    obtain ⟨files, hfiles, howned⟩ := hlaunched.owned
    obtain ⟨later, hlater, hextends⟩ := hgrows _ files hfiles
    exact ⟨later, hlater, hextends.credentials.trans howned⟩
  terminal := hlaunched.terminal
  program := hlaunched.program

/-! ## Restart data -/

/-- Data that a replacement can be started with again and again. -/
structure Restartable (data : RestartData) : Prop where
  path : cString data.path = data.path
  argv : data.argv ≠ []
  argument : ∀ argument ∈ data.argv, cString argument = argument
  root : ∀ root, data.posixRoot = some root → cString root = root
  fromView : data.fromPosixView = true → data.posixRoot = some [slash]

theorem copyString_eq_some {text copied : List UInt8} (hcopy : copyString text = some copied) :
    copied = cString text := by
  unfold copyString at hcopy
  split at hcopy
  · contradiction
  · exact (Option.some.inj hcopy).symm

theorem mapM_copyString {texts copies : List (List UInt8)}
    (hcopies : texts.mapM copyString = some copies) : copies = texts.map cString := by
  induction texts generalizing copies with
  | nil => simpa using hcopies.symm
  | cons text texts ih =>
    simp only [List.mapM_cons, Option.bind_eq_bind, Option.bind_eq_some_iff, Option.pure_def,
      Option.some.injEq] at hcopies
    obtain ⟨first, hfirst, rest, hrest, rfl⟩ := hcopies
    rw [copyString_eq_some hfirst, ih hrest, List.map_cons]

/-- Every argument is copied as a C string; without arguments there is the path. -/
theorem copiedArguments_eq_some {path : List UInt8} {arguments argv : List (List UInt8)}
    (hcopied : copiedArguments path arguments = some argv) :
    argv = if arguments = [] then [path] else arguments.map cString := by
  unfold copiedArguments at hcopied
  split at hcopied
  · rename_i hempty
    rw [if_pos hempty]
    exact (Option.some.inj hcopied).symm
  · rename_i hsome
    rw [if_neg hsome]
    exact mapM_copyString hcopied

variable {event : ProcessEvent} {data : RestartData} {address : ℕ} {later : History Iid Handle}

section Restart

variable {domain : CurrentDomain Iid Handle} {stores : Stores}
  {process : RunningProcess Handle}

theorem restartData_eq_some {path : List UInt8} {argv : List (List UInt8)}
    {restart : Option RestartData} (hinitial : request.initial = true)
    (hdata : restartData request path argv = some restart) :
    restart = some ⟨path, argv, request.posixRoot.map cString, request.fromPosixView,
      request.nativeCapabilities⟩ := by
  rw [restartData, if_pos hinitial] at hdata
  cases hroot : request.posixRoot with
  | none =>
    rw [hroot] at hdata
    exact (Option.some.inj hdata).symm
  | some root =>
    rw [hroot] at hdata
    obtain ⟨copied, hcopied, hrestart⟩ := Option.bind_eq_some_iff.mp hdata
    obtain ⟨text, htext, rfl⟩ := Option.map_eq_some_iff.mp hcopied
    rw [← Option.some.inj hrestart, copyString_eq_some htext, Option.map_some]

section

variable (hlaunched : Launched domain request stores process)
include hlaunched

/-- Only initial processes are restarted. -/
theorem Launched.restart_eq_none (hinitial : request.initial = false) : process.restart = none := by
  obtain ⟨path, started, hprogram⟩ := hlaunched.program
  have hrestart := hprogram.restart
  rw [restartData, if_neg (by simp [hinitial])] at hrestart
  exact (Option.some.inj hrestart).symm

/-- The restart data of an initial process that is launched without a directory. -/
theorem Launched.restart_eq_some (hinitial : request.initial = true) (hcwd : request.cwd = none)
    (hview : request.fromPosixView = true → request.posixRoot = some [slash]) :
    ∃ data started, process.restart = some data ∧ process.platformState = some started
      ∧ facetInitrdFindFile domain.initrd data.path = .ok started.image
      ∧ started.argv = data.argv ∧ data.path = cString request.path
      ∧ data.argv = (if request.arguments = [] then [data.path] else request.arguments.map cString)
      ∧ data.posixRoot = request.posixRoot.map cString
      ∧ data.fromPosixView = request.fromPosixView
      ∧ data.nativeCapabilities = request.nativeCapabilities := by
  obtain ⟨path, started, hprogram⟩ := hlaunched.program
  obtain ⟨copied, hcopied, hpath⟩ := hprogram.path hcwd
  have hbacking : backingPath request copied = copied := by
    unfold backingPath
    cases hroot : request.posixRoot with
    | none => rfl
    | some root =>
      refine if_neg ?_
      rintro ⟨hfrom, hlength, -⟩
      obtain rfl := Option.some.inj (hroot.symm.trans (hview hfrom))
      simp at hlength
  have hwhole : path = cString request.path := by
    rw [hpath, hbacking, copyString_eq_some hcopied]
  exact ⟨_, started, restartData_eq_some hinitial hprogram.restart, hprogram.state, hprogram.image,
    rfl, hwhole, copiedArguments_eq_some hprogram.argv, rfl, rfl, rfl⟩

theorem Launched.restartable (hinitial : request.initial = true) (hcwd : request.cwd = none)
    (hview : request.fromPosixView = true → request.posixRoot = some [slash])
    (hdata : process.restart = some data) : Restartable data := by
  obtain ⟨found, started, hfound, -, -, -, hpath, hargv, hroot, hfrom, -⟩ :=
    hlaunched.restart_eq_some hinitial hcwd hview
  obtain rfl := Option.some.inj (hfound.symm.trans hdata)
  have hcopy : ∀ text : List UInt8, cString (cString text) = cString text :=
    fun text => cString_eq_self (zero_not_mem_cString text)
  refine ⟨?_, ?_, ?_, ?_, ?_⟩
  · rw [hpath, hcopy]
  · rw [hargv]
    split
    · simp
    · simpa
  · intro argument hargument
    rw [hargv] at hargument
    split at hargument
    · rw [List.mem_singleton.mp hargument, hpath, hcopy]
    · obtain ⟨text, -, rfl⟩ := List.mem_map.mp hargument
      exact hcopy text
  · intro root hgiven
    rw [hroot] at hgiven
    obtain ⟨text, -, rfl⟩ := Option.map_eq_some_iff.mp hgiven
    exact hcopy text
  · intro htrue
    rw [hfrom] at htrue
    rw [hroot, hview htrue]
    decide

end

/-- A replacement runs the same program with the same arguments and can be replaced in the
same way. -/
theorem Launched.restart_again {exited : RunningProcess Handle}
    (hlaunched : Launched domain (restartRequest exited data) stores process)
    (hdata : Restartable data) :
    process.restart = some data ∧ ∃ started, process.platformState = some started
      ∧ facetInitrdFindFile domain.initrd data.path = .ok started.image
      ∧ started.argv = data.argv := by
  obtain ⟨found, started, hfound, hstate, himage, hstarted, hpath, hargv, hroot, hfrom, hnative⟩ :=
    hlaunched.restart_eq_some rfl rfl hdata.fromView
  have hsamePath : found.path = data.path := hpath.trans hdata.path
  have hsameArgv : found.argv = data.argv := by
    rw [hargv, show (restartRequest exited data).arguments = data.argv from rfl, if_neg hdata.argv]
    exact (List.map_congr_left hdata.argument).trans (List.map_id _)
  have hsameRoot : found.posixRoot = data.posixRoot := by
    rw [hroot, show (restartRequest exited data).posixRoot = data.posixRoot from rfl]
    cases hgiven : data.posixRoot with
    | none => rfl
    | some root => rw [Option.map_some, hdata.root root hgiven]
  have hsame : found = data := by
    obtain ⟨path, argv, posixRoot, fromView, native⟩ := data
    cases found
    simp_all [restartRequest]
  subst hsame
  exact ⟨hfound, started, hstate, himage, hstarted⟩

end Restart

/-! ## Births -/

theorem origin_eq_initial {history : History Iid Handle} {terminal : ℕ}
    (horigin : history.origin event = .initial terminal) :
    ∃ path arguments posixRoot, event = .launchInitial path arguments terminal posixRoot := by
  cases event with
  | launchInitial path arguments given posixRoot =>
    obtain rfl := Origin.initial.inj horigin
    exact ⟨path, arguments, posixRoot, rfl⟩
  | _ => contradiction

theorem origin_eq_restarted {history : History Iid Handle} {first : ℕ}
    (horigin : history.origin event = .restarted first) :
    ∃ address status, event = .exit address status ∧ original history.births address = first := by
  cases event with
  | exit address status => exact ⟨address, status, rfl, Origin.restarted.inj horigin⟩
  | _ => contradiction

/-- The request that a process of this origin was launched with. -/
inductive Traced (domain : CurrentDomain Iid Handle) (births : List (Birth Handle)) :
    Origin → LaunchRequest Handle → Prop
  | initial (terminal : ℕ) (session : Option Session) (path : List UInt8)
      (arguments : List (List UInt8)) (posixRoot : Option (List UInt8))
      (hsession : initialSession domain terminal = .ok session) :
      Traced domain births (.initial terminal)
        (initialRequest domain session path arguments terminal posixRoot)
  | launched (session : SessionClaims) (path : List UInt8) (arguments : List (List UInt8))
      (terminal : ℕ) (sysv : Option (List (List UInt8))) (cwd : Option DirectoryHandle) :
      Traced domain births .launched
        (launchedRequest domain session path arguments terminal sysv cwd)
  | spawned (address : ℕ) (birth : Birth Handle) (parent : RunningProcess Handle)
      (session : Option SessionClaims) (path : List UInt8) (arguments : List (List UInt8))
      (hbirth : births[address]? = some birth) (hparent : Persists birth.started parent) :
      Traced domain births
        (.spawned address session (some parent.environment.credentials))
        (spawnRequest parent session path arguments)
  | restarted (first terminal : ℕ) (birth : Birth Handle) (exited : RunningProcess Handle)
      (data : RestartData) (hbirth : births[first]? = some birth)
      (horigin : birth.origin = .initial terminal) (hdata : birth.started.restart = some data)
      (hterminal : exited.terminalIndex = birth.started.terminalIndex) :
      Traced domain births (.restarted first) (restartRequest exited data)

/-- The births describe the processes. -/
structure Recorded (history : History Iid Handle) : Prop where
  persists : List.Forall₂ Persists (history.births.map Birth.started) history.manager.processes
  launched : ∀ birth ∈ history.births, ∃ request,
    Traced history.manager.domain history.births birth.origin request
      ∧ Launched history.manager.domain request history.manager.stores birth.started

theorem Traced.append {domain : CurrentDomain Iid Handle} {births more : List (Birth Handle)}
    {origin : Origin}
    (htraced : Traced domain births origin request) :
    Traced domain (births ++ more) origin request := by
  have hkeep : ∀ (address : ℕ) (birth : Birth Handle), births[address]? = some birth →
      (births ++ more)[address]? = some birth := by
    intro address birth hbirth
    rw [List.getElem?_append_left (List.getElem?_eq_some_iff.mp hbirth).1, hbirth]
  cases htraced with
  | initial terminal session path arguments posixRoot hsession =>
    exact .initial _ _ _ _ _ hsession
  | launched session path arguments terminal sysv cwd => exact .launched _ _ _ _ _ _
  | spawned address birth parent session path arguments hbirth hparent =>
    exact .spawned _ _ _ _ _ _ (hkeep _ _ hbirth) hparent
  | restarted first terminal birth exited data hbirth horigin hdata hterminal =>
    exact .restarted _ _ _ _ _ (hkeep _ _ hbirth) horigin hdata hterminal

theorem recorded_empty (domain : CurrentDomain Iid Handle) : Recorded (History.empty domain) :=
  ⟨.nil, fun _ hbirth => absurd hbirth List.not_mem_nil⟩

section Recorded

variable {history : History Iid Handle}

section

variable (hrecorded : Recorded history)
include hrecorded

theorem Recorded.birth_of_process (hprocess : history.manager.processes[address]? = some process) :
    ∃ birth, history.births[address]? = some birth ∧ Persists birth.started process := by
  obtain ⟨hindex, rfl⟩ := List.getElem?_eq_some_iff.mp hprocess
  have hlength := hrecorded.persists.length_eq
  rw [List.length_map] at hlength
  have hbirth : address < history.births.length := hlength ▸ hindex
  have hpersists := hrecorded.persists.get (by simpa using hbirth) hindex
  exact ⟨history.births[address], List.getElem?_eq_getElem hbirth, by simpa using hpersists⟩

/-- The restart data of a process that was launched for a terminal. -/
theorem Recorded.restartable_initial {birth : Birth Handle}
    (hbirth : birth ∈ history.births) {terminal : ℕ} (horigin : birth.origin = .initial terminal)
    (hdata : birth.started.restart = some data) : Restartable data := by
  obtain ⟨request, htraced, hlaunched⟩ := hrecorded.launched birth hbirth
  rw [horigin] at htraced
  cases htraced with
  | initial terminal session path arguments posixRoot hsession =>
    exact hlaunched.restartable rfl rfl of_decide_eq_true hdata

/-- The restart data of a process leads back to the first of its chain. -/
theorem Recorded.original (hprocess : history.manager.processes[address]? = some process)
    (hdata : process.restart = some data) :
    ∃ birth terminal, history.births[original history.births address]? = some birth
      ∧ birth.origin = .initial terminal ∧ birth.started.restart = some data
      ∧ process.terminalIndex = birth.started.terminalIndex := by
  obtain ⟨birth, hbirth, hpersists⟩ := hrecorded.birth_of_process hprocess
  have hmember : birth ∈ history.births := List.mem_of_getElem? hbirth
  have hrestart : birth.started.restart = some data := hpersists.restart.symm.trans hdata
  obtain ⟨request, htraced, hlaunched⟩ := hrecorded.launched birth hmember
  have hinitial : request.initial = true := by
    by_contra hother
    rw [hlaunched.restart_eq_none (eq_false_of_ne_true hother)] at hrestart
    contradiction
  generalize hkind : birth.origin = origin at htraced
  cases htraced with
  | initial terminal session path arguments posixRoot hsession =>
    have hfirst : Process.original history.births address = address := by
      simp [Process.original, hbirth, hkind]
    exact ⟨birth, terminal, hfirst.symm ▸ hbirth, hkind, hrestart, hpersists.terminal⟩
  | launched session path arguments terminal sysv cwd => exact absurd hinitial Bool.false_ne_true
  | spawned parent found process session path arguments hfound hparent =>
    exact absurd hinitial Bool.false_ne_true
  | restarted first terminal found exited again hfound horigin hagain hterminal =>
    have hrestartable := hrecorded.restartable_initial (List.mem_of_getElem? hfound) horigin hagain
    have hsame := (hlaunched.restart_again hrestartable).1
    obtain rfl := Option.some.inj (hsame.symm.trans hrestart)
    have hfirst : Process.original history.births address = first := by
      simp [Process.original, hbirth, hkind]
    refine ⟨found, terminal, hfirst.symm ▸ hfound, horigin, hagain, ?_⟩
    exact hpersists.terminal.trans (hlaunched.terminal.trans hterminal)

/-- A request that an event makes belongs to the origin that is recorded for it. -/
theorem Recorded.traced (hasked : Asked history.manager event request) :
    Traced history.manager.domain history.births (history.origin event) request := by
  cases hasked with
  | launchInitial path arguments terminal posixRoot session hsession =>
    exact .initial _ _ _ _ _ hsession
  | launch caller path arguments session terminal sysv cwd => exact .launched _ _ _ _ _ _
  | launchOnTerminal session terminal path arguments => exact .launched _ _ _ _ _ _
  | spawn address parent view session path resolved arguments hparent hview hcontrolled hpath =>
    obtain ⟨birth, hbirth, hpersists⟩ := hrecorded.birth_of_process hparent
    simp only [History.origin, hparent, Option.map_some]
    exact .spawned _ _ _ _ _ _ hbirth hpersists
  | restart address process data status hprocess hdata =>
    obtain ⟨birth, terminal, hbirth, horigin, hrestart, hterminal⟩ :=
      hrecorded.original hprocess hdata
    exact .restarted _ _ _ _ _ hbirth horigin hrestart hterminal

/-- What a step does to a history: the processes that are there persist, and at most one birth
is added, of a process that was launched as the event asks. -/
structure Continues (event : ProcessEvent) (before after : History Iid Handle) : Prop where
  domain : after.manager.domain = before.manager.domain
  stores : Grows before.manager.stores after.manager.stores
  births : ∃ kept, List.Forall₂ Persists before.manager.processes kept
    ∧ ((after.manager.processes = kept ∧ after.births = before.births)
      ∨ ∃ process request, after.manager.processes = kept ++ [process]
        ∧ after.births = before.births ++ [⟨before.origin event, process⟩]
        ∧ Asked before.manager event request
        ∧ Traced before.manager.domain before.births (before.origin event) request
        ∧ Launched before.manager.domain request after.manager.stores process)

variable (loads) in
theorem Recorded.continues (event : ProcessEvent) :
    Continues event history (history.step loads event).2 := by
  have hadvances := @advances_step _ _ loads history.manager event
  obtain ⟨kept, started, hprocesses, hkept, hstarted⟩ := hadvances.processes
  have hnew : (Process.step loads history.manager event).2.processes.drop
      history.manager.processes.length = started := by
    rw [hprocesses, hkept.length_eq, List.drop_left]
  have hbirths : (history.step loads event).2.births
      = history.births ++ started.map (Birth.mk (history.origin event)) := by
    rw [← hnew]
    rfl
  refine ⟨hadvances.domain, hadvances.stores, kept, hkept, ?_⟩
  obtain rfl | ⟨process, request, rfl, hasked, hlaunched⟩ := hstarted
  · exact .inl ⟨hprocesses.trans (List.append_nil _), hbirths.trans (List.append_nil _)⟩
  · exact .inr ⟨process, request, hprocesses, hbirths, hasked, hrecorded.traced hasked, hlaunched⟩

end

variable (hcontinues : Continues event history later)
include hcontinues

theorem Continues.recorded (hrecorded : Recorded history) :
    Recorded later := by
  obtain ⟨kept, hkept, hcases⟩ := hcontinues.births
  have hold : ∀ more, ∀ birth ∈ history.births, ∃ request,
      Traced history.manager.domain (history.births ++ more) birth.origin request
        ∧ Launched history.manager.domain request later.manager.stores birth.started := by
    intro more birth hbirth
    obtain ⟨request, htraced, hlaunched⟩ := hrecorded.launched birth hbirth
    exact ⟨request, htraced.append, hlaunched.grow hcontinues.stores⟩
  have hpersists := forall₂_persists_trans hrecorded.persists hkept
  obtain ⟨hprocesses, hbirths⟩ | ⟨process, request, hprocesses, hbirths, -, htraced, hlaunched⟩ :=
    hcases
  · refine ⟨?_, ?_⟩
    · rw [hbirths, hprocesses]
      exact hpersists
    · rw [hcontinues.domain, hbirths, ← List.append_nil history.births]
      simpa using hold []
  · refine ⟨?_, ?_⟩
    · rw [hbirths, hprocesses, List.map_append]
      exact List.rel_append hpersists (.cons (Persists.refl process) .nil)
    rw [hcontinues.domain, hbirths]
    intro birth hbirth
    cases List.mem_append.mp hbirth with
    | inl hbefore => exact hold _ birth hbefore
    | inr hnow =>
      obtain rfl := List.mem_singleton.mp hnow
      exact ⟨request, htraced.append, hlaunched⟩

theorem Continues.getElem?_births
    {birth : Birth Handle} (hbirth : history.births[address]? = some birth) :
    later.births[address]? = some birth := by
  obtain ⟨kept, -, ⟨-, hsame⟩ | ⟨process, request, -, hadded, -⟩⟩ := hcontinues.births
  · rw [hsame, hbirth]
  · rw [hadded, List.getElem?_append_left (List.getElem?_eq_some_iff.mp hbirth).1, hbirth]

/-- What holds of every birth when it is added, and stays so, holds of all births. -/
theorem Continues.forall_births {holds : Birth Handle → Prop}
    (hbirths : ∀ birth ∈ history.births, holds birth)
    (hnew : ∀ process request, Asked history.manager event request →
      Traced history.manager.domain history.births (history.origin event) request →
      Launched history.manager.domain request later.manager.stores process →
      holds ⟨history.origin event, process⟩) :
    ∀ birth ∈ later.births, holds birth := by
  obtain ⟨kept, -, ⟨-, hsame⟩ | ⟨process, request, -, hadded, hasked, htraced, hlaunched⟩⟩ :=
    hcontinues.births
  · rw [hsame]
    exact hbirths
  intro birth hbirth
  rw [hadded] at hbirth
  cases List.mem_append.mp hbirth with
  | inl hbefore => exact hbirths birth hbefore
  | inr hnow =>
    obtain rfl := List.mem_singleton.mp hnow
    exact hnew process request hasked htraced hlaunched

end Recorded

/-- In every run of a domain, each process was launched by a request that belongs to its origin,
and keeps what was settled at its start. -/
theorem histories_recorded (domain : CurrentDomain Iid Handle) (events : List ProcessEvent) :
    Recorded ((History.empty domain).run loads events) :=
  Runs.invariant_outputs (fun _ event hrecorded =>
    (hrecorded.continues loads event).recorded hrecorded) (recorded_empty domain) events

end FacetOS.Process
